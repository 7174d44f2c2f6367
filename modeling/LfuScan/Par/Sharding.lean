import LfuScan.Foundations.Dispatch
import LfuScan.Par.Harness
import Mathlib.Algebra.Order.BigOperators.Group.Finset
import Mathlib.Data.List.TakeWhile
import Mathlib.Tactic.Abel

/-! The chunks of the harness cover the table exactly: at the end of a run the totals are
those of every object counted once.
-/

namespace LfuScan.Par

open LfuScan.Lustre LfuScan.Ring LfuScan.Foundations

-----------------------------------------------------------------------------------------
-- The objects of one range
-----------------------------------------------------------------------------------------

/-- The totals of the objects that stand before `end_` in a position. -/
def positionTally (recattr : Bool) (end_ : UInt64) (position : List Object) : Tally :=
  ((position.takeWhile (fun object => object.1 < end_)).map (objectTally recattr)).sum

/-- The totals of one call of `lfu_par_scan_range`. -/
def rangeTally (table : ObjectTable) (recattr : Bool) (start end_ : UInt64) : Tally :=
  positionTally recattr end_ (table.load (loadHash start))

theorem takeWhile_below {objects : List Object}
    (sorted : objects.Pairwise (fun left right => left.1 < right.1)) (end_ : UInt64)
    : objects.takeWhile (fun object => object.1 < end_)
      = objects.filter (fun object => object.1 < end_) := by
  induction sorted with
  | nil => rfl
  | @cons first rest later _ ih =>
      by_cases inside : first.1 < end_
      · simp [inside, ih]
      · have none_left : rest.filter (fun object => object.1 < end_) = [] := by
          refine List.filter_eq_nil_iff.mpr fun object member => ?_
          have after := later object member
          simp only [decide_eq_true_eq, UInt64.lt_iff_toNat_lt] at inside after ⊢
          omega
        simp [inside, none_left]

/-- What a range reads are the objects between its two ends. -/
theorem range_eq_filter {objects : List Object}
    (sorted : objects.Pairwise (fun left right => left.1 < right.1)) (hash end_ : UInt64)
    : (objects.dropWhile (fun object => object.1 ≤ hash)).takeWhile
        (fun object => object.1 < end_)
      = objects.filter (fun object => hash < object.1 ∧ object.1 < end_) := by
  induction sorted with
  | nil => rfl
  | @cons first rest later sorted ih =>
      by_cases before : first.1 ≤ hash
      · have skipped : ¬hash < first.1 := by
          simp only [UInt64.lt_iff_toNat_lt, UInt64.le_iff_toNat_le] at before ⊢
          omega
        simp only [List.dropWhile_cons, before, decide_true, if_true, ih, List.filter_cons,
          skipped, false_and, decide_false, Bool.false_eq_true, if_false]
      · have whole
            : (first :: rest).dropWhile (fun object => object.1 ≤ hash) = first :: rest := by
          simp [before]
        rw [whole, takeWhile_below (List.pairwise_cons.mpr ⟨later, sorted⟩)]
        refine List.filter_congr fun object member => ?_
        have above : hash < object.1 := by
          rcases List.mem_cons.mp member with same | member
          · subst same
            simp only [UInt64.lt_iff_toNat_lt, UInt64.le_iff_toNat_le] at before ⊢
            omega
          · have after := later object member
            simp only [UInt64.lt_iff_toNat_lt, UInt64.le_iff_toNat_le] at before after ⊢
            omega
        simp [above]

variable {params : ParParams} {table : ObjectTable}

/-- The chunk an object belongs to. -/
def ParParams.chunkOf (params : ParParams) (object : Object) : Nat :=
  object.1.toNat / params.chunk.toNat

/-- The totals of one chunk. -/
def chunkTally (params : ParParams) (table : ObjectTable) (idx : Nat) : Tally :=
  ((table.objects.filter (params.chunkOf · = idx)).map (objectTally params.recattr)).sum

/-- Every object belongs to a chunk that has been handed out. -/
def AllHanded (params : ParParams) (table : ObjectTable) (cursor : UInt64) : Prop :=
  ∀ object ∈ table.objects, params.chunkOf object < cursor.toNat

theorem AllHanded.total {cursor : UInt64} (handed : AllHanded params table cursor)
    : ∑ idx ∈ Finset.range cursor.toNat, chunkTally params table idx
      = table.total params.recattr :=
  sum_groups params.chunkOf (objectTally params.recattr) handed

theorem one_le_iff {number : UInt64} : 1 ≤ number ↔ number.toNat ≠ 0 := by
  rw [UInt64.le_iff_toNat_le]
  change 1 ≤ number.toNat ↔ _
  omega

/-- The objects above where a range is loaded are those at or after its start. -/
theorem loadHash_lt {start number : UInt64} (numbered : 1 ≤ number)
    : loadHash start < number ↔ start.toNat ≤ number.toNat := by
  have positive := one_le_iff.mp numbered
  unfold loadHash
  rw [UInt64.lt_iff_toNat_lt]
  split
  · rename_i nonzero
    have nonzero : start.toNat ≠ 0 := fun zero => nonzero (UInt64.toNat_inj.mp zero)
    rw [UInt64.toNat_sub_of_le _ _ (one_le_iff.mpr nonzero)]
    change start.toNat - 1 < _ ↔ _
    omega
  · rename_i zero
    rw [Decidable.not_not.mp zero]
    change 0 < _ ↔ 0 ≤ _
    omega

/-- The range of a chunk, while the chunk ends below 2^64, holds the objects of the chunk. -/
theorem rangeTally_chunk (numbered : ∀ object ∈ table.objects, 1 ≤ object.1)
    {start end_ : UInt64} {idx : Nat} (positive : 0 < params.chunk.toNat)
    (start_eq : start.toNat = idx * params.chunk.toNat)
    (end_eq : end_.toNat = (idx + 1) * params.chunk.toNat)
    : rangeTally table params.recattr start end_ = chunkTally params table idx := by
  unfold rangeTally positionTally chunkTally ObjectTable.load
  rw [range_eq_filter table.sorted]
  congr 2
  refine List.filter_congr fun object member => ?_
  rw [decide_eq_decide, loadHash_lt (numbered object member), UInt64.lt_iff_toNat_lt,
    start_eq, end_eq, ParParams.chunkOf, Nat.div_eq_iff positive, Nat.add_mul, Nat.one_mul]
  refine and_congr_right fun _ => ?_
  omega

/-- The baseline reads the whole table, up to the last object number. -/
theorem rangeTally_whole
    (numbered : ∀ object ∈ table.objects, 1 ≤ object.1 ∧ object.1.toNat < 2 ^ 64 - 1)
    (recattr : Bool)
    : rangeTally table recattr 0 (~~~0) = table.total recattr := by
  unfold rangeTally positionTally ObjectTable.total ObjectTable.load
  rw [range_eq_filter table.sorted]
  congr 2
  refine List.filter_eq_self.mpr fun object member => ?_
  obtain ⟨positive, below⟩ := numbered object member
  rw [decide_eq_true_eq, loadHash_lt positive, UInt64.lt_iff_toNat_lt]
  exact ⟨Nat.zero_le _, below⟩

/-- What a worker has still to add to the totals. -/
def Worker.owed (params : ParParams) (table : ObjectTable) : Worker → Tally
  | .unborn | .born =>
      if params.privMode then 0 else rangeTally table params.recattr 0 (~~~0)
  | .init start end_ | .load start end_ => rangeTally table params.recattr start end_
  | .loop current rest end_ tally =>
      tally + positionTally params.recattr end_ (current :: rest)
  | .addObjects _ tally => tally
  | .addAttrOk _ tally => { tally with objects := 0 }
  | .addFidsum _ tally => { tally with objects := 0, attrOk := 0 }
  | .addAttrsum _ tally => { attrsum := tally.attrsum }
  | _ => 0

theorem moved_owed (end_ : UInt64) (tally : Tally) (position : List Object)
    : (Worker.moved end_ tally position).owed params table
      = tally + positionTally params.recattr end_ position := by
  cases position with
  | nil => exact (add_zero tally).symm
  | cons current rest => rfl

/-- A worker pays into the totals what it owed; only a new chunk is owed anew. -/
theorem workerStep_owed (unlimited : params.limit = 0) (st : Shared) {worker : Worker}
    (working : worker ≠ .fetch)
    : (workerStep params table st worker).1.totals
        + (workerStep params table st worker).2.owed params table
      = st.totals + worker.owed params table := by
  cases worker with
  | fetch => exact absurd rfl working
  | born =>
      cases mode : params.privMode <;> simp [workerStep, Worker.owed, mode]
  | testDone =>
      simp only [workerStep]
      split <;> rfl
  | testErr =>
      simp only [workerStep]
      split <;> rfl
  | load start end_ =>
      simp only [workerStep, moved_owed, zero_add]
      rfl
  | loop current rest end_ tally =>
      simp only [workerStep, unlimited]
      split
      · rename_i past
        have none_left : positionTally params.recattr end_ (current :: rest) = 0 := by
          have outside : ¬current.1 < end_ := by
            simp only [ge_iff_le, UInt64.le_iff_toNat_le, UInt64.lt_iff_toNat_lt] at past ⊢
            omega
          simp [positionTally, outside]
        simp only [Worker.owed, none_left, add_zero]
      · rename_i inside
        have counted
            : positionTally params.recattr end_ (current :: rest)
              = objectTally params.recattr current
                + positionTally params.recattr end_ rest := by
          have inside : current.1 < end_ := by
            simp only [ge_iff_le, UInt64.le_iff_toNat_le, UInt64.lt_iff_toNat_lt] at inside ⊢
            omega
          simp [positionTally, inside]
        simp only [ne_eq, not_true_eq_false, false_and, if_false, moved_owed, Tally.count_eq,
          add_assoc]
        rw [Worker.owed, counted]
  | addAttrsum rc tally =>
      simp only [workerStep]
      split <;> ext <;> simp [Worker.owed, tally_add_eq, tally_zero_eq]
  | returned rc =>
      simp only [workerStep]
      split
      · simp only
        split
        · rfl
        · split <;> rfl
      · rfl
  | finish rc =>
      simp only [workerStep]
      split <;> rfl
  | _ => first | rfl | (ext <;> simp [workerStep, Worker.owed, tally_add_eq])

-----------------------------------------------------------------------------------------
-- Where a worker can be
-----------------------------------------------------------------------------------------

/-- What is known of a worker of a sharded run without errors, when `cursor` chunks have been
handed out: a range that ends the table has seen every object, or found it handed out.
-/
def Worker.Placed (params : ParParams) (table : ObjectTable) (cursor : UInt64)
    : Worker → Prop
  | .init start end_ | .load start end_ =>
      start.toNat < cursor.toNat * params.chunk.toNat
      ∧ end_.toNat ≤ cursor.toNat * params.chunk.toNat
  | .loop current rest end_ _ =>
      end_.toNat ≤ cursor.toNat * params.chunk.toNat
      ∧ ∃ before, table.objects = before ++ current :: rest
          ∧ ∀ object ∈ before, params.chunkOf object < cursor.toNat
  | .addObjects rc _ | .addAttrOk rc _ | .addFidsum rc _ | .addAttrsum rc _ | .addChunks rc
  | .returned rc => rc = 0 ∨ (rc = 1 ∧ AllHanded params table cursor)
  | .finish rc => rc = 0 ∧ AllHanded params table cursor
  | .setErr _ => False
  | .setDone | .out | .exited => AllHanded params table cursor
  | _ => True

theorem AllHanded.mono {cursor later : UInt64} (more : cursor.toNat ≤ later.toNat)
    (handed : AllHanded params table cursor)
    : AllHanded params table later :=
  fun object member => Nat.lt_of_lt_of_le (handed object member) more

theorem Worker.Placed.mono {cursor later : UInt64} (more : cursor.toNat ≤ later.toNat)
    {worker : Worker} (placed : worker.Placed params table cursor)
    : worker.Placed params table later := by
  have further := Nat.mul_le_mul_right params.chunk.toNat more
  cases worker with
  | init start end_ =>
      exact ⟨Nat.lt_of_lt_of_le placed.1 further, Nat.le_trans placed.2 further⟩
  | load start end_ =>
      exact ⟨Nat.lt_of_lt_of_le placed.1 further, Nat.le_trans placed.2 further⟩
  | loop current rest end_ tally =>
      obtain ⟨below, before, split, handed⟩ := placed
      refine ⟨Nat.le_trans below further, before, split, fun object member => ?_⟩
      exact Nat.lt_of_lt_of_le (handed object member) more
  | finish rc => exact ⟨placed.1, placed.2.mono more⟩
  | setErr rc => exact placed
  | setDone | out | exited => exact AllHanded.mono more placed
  | addObjects | addAttrOk | addFidsum | addAttrsum | addChunks | returned =>
      exact placed.imp id fun ⟨one, handed⟩ => ⟨one, handed.mono more⟩
  | _ => trivial

/-- The iterator has moved past objects that are all handed out. -/
theorem moved_placed {cursor end_ : UInt64} (tally : Tally)
    (below : end_.toNat ≤ cursor.toNat * params.chunk.toNat) {before position : List Object}
    (split : table.objects = before ++ position)
    (handed : ∀ object ∈ before, params.chunkOf object < cursor.toNat)
    : (Worker.moved end_ tally position).Placed params table cursor := by
  cases position with
  | nil =>
      refine .inr ⟨rfl, fun object member => handed object ?_⟩
      rwa [split, List.append_nil] at member
  | cons current rest => exact ⟨below, before, split, handed⟩

theorem chunkOf_lt {object : Object} {cursor : UInt64} {bound : Nat}
    (positive : 0 < params.chunk.toNat)
    (below : object.1.toNat < bound) (handed : bound ≤ cursor.toNat * params.chunk.toNat)
    : params.chunkOf object < cursor.toNat :=
  (Nat.div_lt_iff_lt_mul positive).mpr (Nat.lt_of_lt_of_le below handed)

theorem workerStep_placed (mode : params.privMode = true) (positive : 0 < params.chunk.toNat)
    (numbered : ∀ object ∈ table.objects, 1 ≤ object.1) (unlimited : params.limit = 0)
    {st : Shared} (err : st.err = 0) (done : st.done = true → AllHanded params table st.cursor)
    {worker : Worker} (working : worker ≠ .fetch)
    (placed : worker.Placed params table st.cursor)
    : (workerStep params table st worker).2.Placed params table st.cursor := by
  cases worker with
  | fetch => exact absurd rfl working
  | born =>
      simp only [workerStep, mode, if_true]
      trivial
  | testDone =>
      simp only [workerStep]
      split
      · rename_i seen
        exact ⟨rfl, done seen⟩
      · trivial
  | testErr =>
      simp only [workerStep, err, ne_eq, not_true_eq_false, if_false]
      trivial
  | load start end_ =>
      -- what `load` skips lies before the start of the range
      refine moved_placed 0 placed.2 (List.takeWhile_append_dropWhile).symm ?_
      intro object member
      have skipped := List.mem_takeWhile_imp member
      have member := (List.takeWhile_sublist _).subset member
      have before : object.1.toNat < start.toNat := by
        by_contra after
        have above := (loadHash_lt (numbered object member)).mpr (Nat.not_lt.mp after)
        simp only [decide_eq_true_eq, UInt64.le_iff_toNat_le, UInt64.lt_iff_toNat_lt]
          at skipped above
        omega
      exact chunkOf_lt positive before (Nat.le_of_lt placed.1)
  | loop current rest end_ tally =>
      obtain ⟨below, before, split, handed⟩ := placed
      simp only [workerStep, unlimited]
      split
      · exact .inl rfl
      · rename_i inside
        simp only [ne_eq, not_true_eq_false, false_and, if_false]
        have split : table.objects = (before ++ [current]) ++ rest := by simp [split]
        refine moved_placed _ below split ?_
        intro object member
        rcases List.mem_append.mp member with member | member
        · exact handed object member
        · rw [List.mem_singleton.mp member]
          simp only [ge_iff_le, UInt64.le_iff_toNat_le, Nat.not_le] at inside
          exact chunkOf_lt positive inside below
  | addAttrsum rc tally =>
      simp only [workerStep]
      split <;> exact placed
  | returned rc =>
      simp only [workerStep, mode, if_true]
      rcases placed with zero | ⟨one, handed⟩
      · simp only [zero, gt_iff_lt, lt_self_iff_false, if_false]
        trivial
      · simp only [one, gt_iff_lt, Int.zero_lt_one, if_true]
        exact handed
  | setDone => exact ⟨rfl, placed⟩
  | finish rc =>
      simp only [workerStep, placed.1, lt_self_iff_false, false_and, if_false]
      exact placed.2
  | setErr rc => exact placed.elim
  | _ => exact placed

-----------------------------------------------------------------------------------------
-- How far the cursor can run
-----------------------------------------------------------------------------------------

/-- The worker will take no further chunk. -/
def Worker.spent (table : ObjectTable) : Worker → Bool
  | .init start _ | .load start _ => (table.load (loadHash start)).isEmpty
  | .addObjects rc _ | .addAttrOk rc _ | .addFidsum rc _ | .addAttrsum rc _ | .addChunks rc
  | .returned rc => rc = 1
  | .setDone | .finish _ | .setErr _ | .out | .exited => true
  | _ => false

theorem workerStep_spent (mode : params.privMode = true) {st : Shared} {worker : Worker}
    (spent : worker.spent table = true)
    : (workerStep params table st worker).2.spent table = true := by
  cases worker with
  | unborn | born | testDone | testErr | fetch | loop => exact absurd spent Bool.false_ne_true
  | load start end_ =>
      have empty : table.load (loadHash start) = [] := List.isEmpty_iff.mp spent
      simp only [workerStep, empty]
      rfl
  | addAttrsum rc tally =>
      simp only [workerStep]
      split <;> exact spent
  | returned rc =>
      obtain rfl : rc = 1 := of_decide_eq_true spent
      simp only [workerStep, mode, if_true]
      rfl
  | finish rc =>
      simp only [workerStep]
      split <;> rfl
  | _ => exact spent

/-- The number of workers that will take no further chunk. -/
def Harness.spent (table : ObjectTable) (s : Harness params) : Nat :=
  ∑ i, if (s.workers i).spent table then 1 else 0

theorem Harness.spent_update (s : Harness params) (i : Fin params.workers) (next : Worker)
    : ∑ j, (if (Function.update s.workers i next j).spent table then 1 else 0)
      = (if next.spent table then 1 else 0)
        + ∑ j ∈ Finset.univ.erase i, if (s.workers j).spent table then 1 else 0 :=
  sum_update_others (fun worker : Worker => if worker.spent table then 1 else 0) s.workers i next

theorem Harness.spent_split (s : Harness params) (i : Fin params.workers)
    : s.spent table
      = (if (s.workers i).spent table then 1 else 0)
        + ∑ j ∈ Finset.univ.erase i, if (s.workers j).spent table then 1 else 0 := by
  rw [← s.spent_update i (s.workers i), Function.update_eq_self]
  rfl

/-- A worker that can still take a chunk is not among the spent ones. -/
theorem Harness.spent_lt (s : Harness params) {i : Fin params.workers}
    (free : (s.workers i).spent table = false)
    : s.spent table < params.workers := by
  have others
      : ∑ j ∈ Finset.univ.erase i, (if (s.workers j).spent table then 1 else 0)
        ≤ (Finset.univ.erase i).card := by
    rw [Finset.card_eq_sum_ones]
    refine Finset.sum_le_sum fun j _ => ?_
    split <;> omega
  have card : (Finset.univ.erase i).card = params.workers - 1 := by simp
  have inhabited := i.isLt
  rw [s.spent_split i, free]
  simp only [Bool.false_eq_true, if_false]
  omega

-- The objects lie in the first `used` chunks, and after those every worker can take one
-- more chunk before the object numbers wrap.
variable {used : Nat}

/-- The arithmetic of taking a chunk while there is room. -/
theorem fetch_room {cursor : UInt64}
    (room : (used + params.workers) * params.chunk.toNat < 2 ^ 64)
    (positive : 0 < params.chunk.toNat) (bound : cursor.toNat < used + params.workers)
    : (cursor + 1).toNat = cursor.toNat + 1
      ∧ (cursor * params.chunk.toUInt64).toNat = cursor.toNat * params.chunk.toNat
      ∧ (cursor * params.chunk.toUInt64 + params.chunk.toUInt64).toNat
        = (cursor.toNat + 1) * params.chunk.toNat := by
  have ending : (cursor.toNat + 1) * params.chunk.toNat < 2 ^ 64 :=
    Nat.lt_of_le_of_lt (Nat.mul_le_mul_right _ bound) room
  have starting : cursor.toNat * params.chunk.toNat < 2 ^ 64 :=
    Nat.lt_of_le_of_lt (Nat.mul_le_mul_right _ (Nat.le_succ _)) ending
  have counting : cursor.toNat + 1 < 2 ^ 64 :=
    Nat.lt_of_le_of_lt (Nat.le_mul_of_pos_right _ positive) ending
  have start
      : (cursor * params.chunk.toUInt64).toNat = cursor.toNat * params.chunk.toNat := by
    rw [UInt64.toNat_mul, UInt32.toNat_toUInt64, Nat.mod_eq_of_lt starting]
  refine ⟨?_, start, ?_⟩
  · rw [UInt64.toNat_add]
    exact Nat.mod_eq_of_lt counting
  · rw [UInt64.toNat_add, start, UInt32.toNat_toUInt64, ← Nat.succ_mul]
    exact Nat.mod_eq_of_lt ending

/-- Past the last used chunk there is nothing left to load. -/
theorem load_past (numbered : ∀ object ∈ table.objects, 1 ≤ object.1)
    (covers : ∀ object ∈ table.objects, params.chunkOf object < used)
    (positive : 0 < params.chunk.toNat) {start : UInt64}
    (past : used * params.chunk.toNat ≤ start.toNat)
    : table.load (loadHash start) = [] := by
  refine List.dropWhile_eq_nil_iff.mpr fun object member => ?_
  have before : object.1.toNat < used * params.chunk.toNat :=
    (Nat.div_lt_iff_lt_mul positive).mp (covers object member)
  have notAbove : ¬loadHash start < object.1 :=
    mt (loadHash_lt (numbered object member)).mp (by omega)
  rw [decide_eq_true_eq, UInt64.le_iff_toNat_le]
  rw [UInt64.lt_iff_toNat_lt] at notAbove
  omega

-----------------------------------------------------------------------------------------
-- Steps and runs
-----------------------------------------------------------------------------------------

/-- The steps that meet no error. -/
def noFault {params : ParParams} (_ : Harness params) (event : Event) : Prop := event ≠ .fault

/-- What holds in a sharded run: the totals and what is still owed add up to the chunks
handed out.
-/
structure Sharded (table : ObjectTable) (used : Nat) (s : Harness params) : Prop where
  err : s.st.err = 0
  done : s.st.done = true → AllHanded params table s.st.cursor
  placed : ∀ i, (s.workers i).Placed params table s.st.cursor
  bound : s.st.cursor.toNat ≤ used + s.spent table
  balance
    : s.st.totals + ∑ i, (s.workers i).owed params table
      = ∑ idx ∈ Finset.range s.st.cursor.toNat, chunkTally params table idx

variable {s s' : Harness params}

/-- The threads that have not been started have done nothing. -/
def Harness.Unborn (s : Harness params) : Prop :=
  ∀ i : Fin params.workers, s.spawned ≤ i.val → s.workers i = .unborn

theorem Harness.Unborn.step (unborn : s.Unborn) {event : Event}
    (step : Step params table s event s')
    : s'.Unborn := by
  intro j later
  cases step with
  | spawn i next =>
      have other : j ≠ i := fun same => by
        subst same
        exact absurd later (by rw [next]; exact Nat.not_succ_le_self _)
      exact (Function.update_of_ne other _ _).trans (unborn j (Nat.le_of_succ_le later))
  | spawnFault pending rc failed => exact absurd j.isLt (Nat.not_lt.mpr later)
  | worker i =>
      have before := unborn j later
      by_cases same : j = i
      · subst same
        refine (Function.update_self _ _ _).trans ?_
        rw [before]
        rfl
      · exact (Function.update_of_ne same _ _).trans before
  | workerFault i next failed =>
      have before := unborn j later
      by_cases same : j = i
      · subst same
        rw [before] at failed
        exact nomatch failed
      · exact (Function.update_of_ne same _ _).trans before

theorem workerStep_shared (table : ObjectTable) (st : Shared) {worker : Worker}
    (working : worker ≠ .fetch)
    : (workerStep params table st worker).1.cursor = st.cursor
      ∧ ((workerStep params table st worker).1.err = st.err ∨ ∃ rc, worker = .setErr rc)
      ∧ ((workerStep params table st worker).1.done = st.done ∨ worker = .setDone) := by
  cases worker with
  | fetch => exact absurd rfl working
  | loop current rest end_ tally =>
      simp only [workerStep]
      split
      · exact ⟨rfl, .inl rfl, .inl rfl⟩
      · split <;> exact ⟨rfl, .inl rfl, .inl rfl⟩
  | returned rc =>
      simp only [workerStep]
      split <;> exact ⟨rfl, .inl rfl, .inl rfl⟩
  | setDone => exact ⟨rfl, .inl rfl, .inr rfl⟩
  | setErr rc => exact ⟨rfl, .inr ⟨rc, rfl⟩, .inl rfl⟩
  | _ => exact ⟨rfl, .inl rfl, .inl rfl⟩

theorem owed_split (s : Harness params) (i : Fin params.workers)
    : ∑ j, (s.workers j).owed params table
      = (s.workers i).owed params table
        + ∑ j ∈ Finset.univ.erase i, (s.workers j).owed params table := by
  rw [← sum_update_others (Worker.owed params table), Function.update_eq_self]

/-- What one worker pays is what it owes less; the others owe what they owed. -/
theorem paid_balance (i : Fin params.workers) {totals : Tally} {next : Worker}
    (paid
      : totals + next.owed params table
        = s.st.totals + (s.workers i).owed params table)
    : totals + ∑ j, (Function.update s.workers i next j).owed params table
      = s.st.totals + ∑ j, (s.workers j).owed params table := by
  rw [sum_update_others (Worker.owed params table), owed_split s i, ← add_assoc, paid,
    add_assoc]

/-- One worker changes place and pays what it owes less. -/
theorem Sharded.move (inv : Sharded table used s) (i : Fin params.workers) {st : Shared}
    {next : Worker} {spawned : Nat} (err : st.err = 0)
    (done : st.done = true → AllHanded params table st.cursor)
    (cursor : st.cursor = s.st.cursor) (placed : next.Placed params table st.cursor)
    (spent : (s.workers i).spent table = true → next.spent table = true)
    (paid
      : st.totals + next.owed params table
        = s.st.totals + (s.workers i).owed params table)
    : Sharded table used
        { s with st, spawned, workers := Function.update s.workers i next } where
  err := err
  done := done
  placed j := by
    by_cases same : j = i
    · subst same
      simpa only [Function.update_self] using placed
    · simpa only [Function.update_of_ne same, cursor] using inv.placed j
  bound := by
    have bound := inv.bound
    rw [s.spent_split i] at bound
    simp only [Harness.spent, s.spent_update i next, cursor]
    cases before : (s.workers i).spent table with
    | false =>
        simp only [before, Bool.false_eq_true, if_false] at bound
        omega
    | true => simpa only [before, spent before] using bound
  balance := by
    rw [cursor, ← inv.balance]
    exact paid_balance i paid

/-- One worker takes the next chunk. -/
theorem Sharded.fetch (inv : Sharded table used s) (i : Fin params.workers)
    (numbered : ∀ object ∈ table.objects, 1 ≤ object.1)
    (covers : ∀ object ∈ table.objects, params.chunkOf object < used)
    (room : (used + params.workers) * params.chunk.toNat < 2 ^ 64)
    (positive : 0 < params.chunk.toNat) (at_ : s.workers i = .fetch)
    : Sharded table used
        {
          s with
          st := (workerStep params table s.st .fetch).1
          workers := Function.update s.workers i (workerStep params table s.st .fetch).2
        } := by
  have free : (s.workers i).spent table = false := by rw [at_]; rfl
  have bound := inv.bound
  have few := s.spent_lt free
  obtain ⟨cursor, start, end_⟩ := fetch_room room positive
    (Nat.lt_of_le_of_lt bound (Nat.add_lt_add_left few used))
  have more : s.st.cursor.toNat ≤ (s.st.cursor + 1).toNat := by omega
  have later : s.st.cursor.toNat * params.chunk.toNat
      < (s.st.cursor.toNat + 1) * params.chunk.toNat := by
    rw [Nat.succ_mul]
    omega
  have spending (past : used ≤ s.st.cursor.toNat)
      : (workerStep params table s.st .fetch).2.spent table = true := by
    refine List.isEmpty_iff.mpr (load_past numbered covers positive ?_)
    rw [start]
    exact Nat.mul_le_mul_right _ past
  have owing
      : (workerStep params table s.st .fetch).2.owed params table
        = chunkTally params table s.st.cursor.toNat :=
    rangeTally_chunk numbered positive start end_
  refine ⟨inv.err, fun done => (inv.done done).mono more, fun j => ?_, ?_, ?_⟩
  · by_cases same : j = i
    · subst same
      simp only [Function.update_self, workerStep]
      exact ⟨by rw [start, cursor]; exact later, by rw [end_, cursor]⟩
    · simp only [Function.update_of_ne same]
      exact (inv.placed j).mono more
  · rw [s.spent_split i, free] at bound
    simp only [Bool.false_eq_true, if_false] at bound
    simp only [Harness.spent, s.spent_update i]
    change (s.st.cursor + 1).toNat ≤ _
    by_cases past : used ≤ s.st.cursor.toNat
    · simp only [spending past, if_true]
      omega
    · omega
  · have nothing : (s.workers i).owed params table = 0 := by rw [at_]; rfl
    have balance := inv.balance
    rw [owed_split s i, nothing, zero_add] at balance
    simp only [sum_update_others (Worker.owed params table), owing]
    change s.st.totals + _ = ∑ idx ∈ Finset.range (s.st.cursor + 1).toNat, _
    rw [cursor, Finset.sum_range_succ, ← balance]
    abel

theorem Sharded.step (mode : params.privMode = true) (positive : 0 < params.chunk.toNat)
    (unlimited : params.limit = 0) (numbered : ∀ object ∈ table.objects, 1 ≤ object.1)
    (covers : ∀ object ∈ table.objects, params.chunkOf object < used)
    (room : (used + params.workers) * params.chunk.toNat < 2 ^ 64)
    (inv : Sharded table used s) (unborn : s.Unborn) {event : Event}
    (step : Guarded (Step params table) noFault s event s')
    : Sharded table used s' := by
  obtain ⟨step, quiet⟩ := step
  cases step with
  | spawnFault => exact absurd rfl quiet
  | workerFault => exact absurd rfl quiet
  | spawn i next =>
      have before := unborn i (Nat.le_of_eq next)
      refine inv.move i inv.err inv.done rfl trivial ?_ ?_
      · rw [before]
        exact nofun
      · rw [before]
        rfl
  | worker i =>
      by_cases at_ : s.workers i = .fetch
      · rw [at_]
        exact inv.fetch i numbered covers room positive at_
      · obtain ⟨cursor, err, done⟩ := workerStep_shared table s.st at_
        have placed := inv.placed i
        have handed
            : (workerStep params table s.st (s.workers i)).1.done = true →
              AllHanded params table s.st.cursor := by
          rcases done with same | setting
          · rw [same]
            exact inv.done
          · rw [setting] at placed
            exact fun _ => placed
        have quiet : (workerStep params table s.st (s.workers i)).1.err = 0 := by
          rcases err with same | ⟨rc, setting⟩
          · rw [same, inv.err]
          · rw [setting] at placed
            exact placed.elim
        refine inv.move i quiet (by rw [cursor]; exact handed) cursor ?_ (workerStep_spent mode)
          (workerStep_owed unlimited s.st at_)
        rw [cursor]
        exact workerStep_placed mode positive numbered unlimited inv.err inv.done at_ placed

theorem Sharded.start (params : ParParams) (table : ObjectTable) (used : Nat)
    (mode : params.privMode = true)
    : Sharded table used ({} : Harness params) where
  err := rfl
  done := nofun
  placed _ := trivial
  bound := Nat.zero_le _
  balance := by
    simp only [Worker.owed, mode, if_true, Finset.sum_const_zero]
    rfl

/-- The one worker of the baseline takes no chunk. -/
def Worker.baseline : Worker → Bool
  | .testDone | .testErr | .fetch => false
  | _ => true

/-- What holds in a run of the baseline: its worker owes the whole table from the start. -/
structure Baseline (table : ObjectTable) (s : Harness params) : Prop where
  placed : ∀ i, (s.workers i).baseline = true
  balance
    : s.st.totals + ∑ i, (s.workers i).owed params table
      = rangeTally table params.recattr 0 (~~~0)

theorem workerStep_baseline (mode : params.privMode = false) (st : Shared) {worker : Worker}
    (placed : worker.baseline = true)
    : (workerStep params table st worker).2.baseline = true := by
  have moved (end_ : UInt64) (tally : Tally) (position : List Object)
      : (Worker.moved end_ tally position).baseline = true := by
    cases position <;> rfl
  cases worker with
  | testDone | testErr | fetch => exact absurd placed (by decide)
  | born => simp [workerStep, mode, Worker.baseline]
  | load start end_ => exact moved _ _ _
  | loop current rest end_ tally =>
      simp only [workerStep]
      split
      · rfl
      · split
        · rfl
        · exact moved _ _ _
  | addAttrsum rc tally =>
      simp only [workerStep]
      split <;> rfl
  | returned rc => simp [workerStep, mode, Worker.baseline]
  | finish rc =>
      simp only [workerStep]
      split <;> rfl
  | _ => rfl

theorem Baseline.move (inv : Baseline table s) (i : Fin params.workers) {st : Shared}
    {next : Worker} {spawned : Nat} (placed : next.baseline = true)
    (paid
      : st.totals + next.owed params table
        = s.st.totals + (s.workers i).owed params table)
    : Baseline table { s with st, spawned, workers := Function.update s.workers i next } where
  placed j := by
    by_cases same : j = i
    · subst same
      simpa only [Function.update_self] using placed
    · simpa only [Function.update_of_ne same] using inv.placed j
  balance := (paid_balance i paid).trans inv.balance

theorem Baseline.step (mode : params.privMode = false) (unlimited : params.limit = 0)
    (inv : Baseline table s) (unborn : s.Unborn) {event : Event}
    (step : Guarded (Step params table) noFault s event s')
    : Baseline table s' := by
  obtain ⟨step, quiet⟩ := step
  cases step with
  | spawnFault => exact absurd rfl quiet
  | workerFault => exact absurd rfl quiet
  | spawn i next =>
      refine inv.move i rfl ?_
      rw [unborn i (Nat.le_of_eq next)]
      rfl
  | worker i =>
      have placed := inv.placed i
      have working : s.workers i ≠ .fetch := fun at_ => by simp [at_, Worker.baseline] at placed
      exact inv.move i (workerStep_baseline mode s.st placed)
        (workerStep_owed unlimited s.st working)

theorem Baseline.start (mode : params.privMode = false)
    : Baseline table ({} : Harness params) where
  placed _ := rfl
  balance := by
    have one : params.workers = 1 := by simp [ParParams.workers, mode]
    simp only [Worker.owed, mode, Bool.false_eq_true, if_false, Finset.sum_const,
      Finset.card_univ, Fintype.card_fin, one, one_nsmul]
    exact zero_add _

-----------------------------------------------------------------------------------------
-- Exactness
-----------------------------------------------------------------------------------------

/-- The chunks the objects lie in, with room for one more chunk for each worker. -/
theorem exists_used {objects : List Object}
    (room
      : ∀ object ∈ objects,
          object.1.toNat + (params.workers + 1) * params.chunk.toNat < 2 ^ 64)
    : ∃ used, (∀ object ∈ objects, params.chunkOf object < used)
        ∧ (used + params.workers) * params.chunk.toNat < 2 ^ 64 := by
  induction objects with
  | nil =>
      refine ⟨0, by simp, ?_⟩
      have few : params.workers < 2 ^ 32 := by
        unfold ParParams.workers
        split
        · exact params.nthreads.toNat_lt
        · decide
      have small : params.chunk.toNat < 2 ^ 32 := params.chunk.toNat_lt
      rw [Nat.zero_add]
      calc params.workers * params.chunk.toNat
          < 2 ^ 32 * 2 ^ 32 := Nat.mul_lt_mul'' few small
        _ = 2 ^ 64 := by decide
  | cons object objects ih =>
      obtain ⟨used, covers, fits⟩ :=
        ih fun other member => room other (List.mem_cons_of_mem _ member)
      have here := room object List.mem_cons_self
      by_cases inside : params.chunkOf object < used
      · refine ⟨used, fun other member => ?_, fits⟩
        rcases List.mem_cons.mp member with same | member
        · rwa [same]
        · exact covers other member
      · refine ⟨params.chunkOf object + 1, fun other member => ?_, ?_⟩
        · rcases List.mem_cons.mp member with same | member
          · rw [same]
            exact Nat.lt_succ_self _
          · exact Nat.lt_of_lt_of_le (covers other member) (by omega)
        · have whole : params.chunkOf object * params.chunk.toNat ≤ object.1.toNat :=
            Nat.div_mul_le_self _ _
          rw [Nat.add_assoc, Nat.add_mul, Nat.add_comm 1]
          omega

/-- How far the object numbers have to stay below 2^64: by the chunks that the workers take past
the last object, or by the end of the one range of the baseline, which is not in it.
-/
def ParParams.headroom (params : ParParams) : Nat :=
  if params.privMode then (params.workers + 1) * params.chunk.toNat else 1

/-- The sharding is exact: a run that meets no error and no limit ends with the totals of the
whole table, each object counted once, whatever the number of threads, the size of the
chunks, the mode and the interleaving.
-/
theorem sharding_exact {params : ParParams} {table : ObjectTable}
    (threads : 1 ≤ params.nthreads) (chunk : 1 ≤ params.chunk) (unlimited : params.limit = 0)
    (numbered : ∀ object ∈ table.objects, 1 ≤ object.1)
    (room : ∀ object ∈ table.objects, object.1.toNat + params.headroom < 2 ^ 64)
    {trace : List Event} {s : Harness params}
    (run : Run (Guarded (Step params table) noFault) {} trace s)
    (finished : ∀ i, s.workers i = .exited)
    : s.st.totals = table.total params.recattr := by
  have positive : 0 < params.chunk.toNat := UInt32.le_iff_toNat_le.mp chunk
  have paid : ∑ i, (s.workers i).owed params table = 0 :=
    Finset.sum_eq_zero fun i _ => by rw [finished i]; rfl
  unfold ParParams.headroom at room
  cases mode : params.privMode with
  | true =>
      rw [mode, if_pos rfl] at room
      obtain ⟨used, covers, fits⟩ := exists_used room
      have inv : s.Unborn ∧ Sharded table used s := by
        refine run.invariant (fun s => s.Unborn ∧ Sharded table used s) ?_ ?_
        · exact ⟨fun _ _ => rfl, .start params table used mode⟩
        · rintro before event after ⟨unborn, inv⟩ step
          exact ⟨unborn.step step.1,
            inv.step mode positive unlimited numbered covers fits unborn step⟩
      have balance := inv.2.balance
      have first : 0 < params.workers := by
        simp only [ParParams.workers, mode, if_true]
        exact UInt32.le_iff_toNat_le.mp threads
      have handed := inv.2.placed ⟨0, first⟩
      rw [finished] at handed
      rw [paid, add_zero, AllHanded.total handed] at balance
      exact balance
  | false =>
      have inv : s.Unborn ∧ Baseline table s := by
        refine run.invariant (fun s => s.Unborn ∧ Baseline table s) ?_ ?_
        · exact ⟨fun _ _ => rfl, .start mode⟩
        · rintro before event after ⟨unborn, inv⟩ step
          exact ⟨unborn.step step.1, inv.step mode unlimited unborn step⟩
      have balance := inv.2.balance
      rw [paid, add_zero, rangeTally_whole] at balance
      · exact balance
      · intro object member
        have here := room object member
        rw [mode, if_neg Bool.false_ne_true] at here
        exact ⟨numbered object member, by omega⟩

/-- The workers of a list step in its order. -/
def scheduled (params : ParParams) (table : ObjectTable)
    : List (Fin params.workers) → Harness params → Harness params
  | [], s => s
  | i :: rest, s =>
      scheduled params table rest
        {
          s with
          st := (workerStep params table s.st (s.workers i)).1
          workers := Function.update s.workers i (workerStep params table s.st (s.workers i)).2
        }

theorem scheduled_run {params : ParParams} {table : ObjectTable}
    (schedule : List (Fin params.workers)) {trace : List Event} {start s : Harness params}
    (run : Run (Guarded (Step params table) noFault) start trace s)
    : ∃ trace, Run (Guarded (Step params table) noFault) start trace
        (scheduled params table schedule s) := by
  induction schedule generalizing trace s with
  | nil => exact ⟨trace, run⟩
  | cons i rest ih => exact ih (run.snoc ⟨.worker i, nofun⟩)

theorem scheduled_replicate {params : ParParams} {table : ObjectTable} (n : Nat)
    (i : Fin params.workers) (s : Harness params)
    : scheduled params table (List.replicate n i) s
      = (let alone := (fun at_ => workerStep params table at_.1 at_.2)^[n] (s.st, s.workers i)
        { s with st := alone.1, workers := Function.update s.workers i alone.2 }) := by
  induction n generalizing s with
  | zero => simp [scheduled]
  | succ n ih =>
      rw [List.replicate_succ, scheduled, ih]
      simp only [Function.update_self, Function.update_idem, Function.iterate_succ_apply]

/-- A worker goes through a chunk without an object, if there is one above it. -/
theorem scheduled_past {params : ParParams} {table : ObjectTable} {s : Harness params}
    {i : Fin params.workers} {object : Object} {rest : List Object}
    (mode : params.privMode = true) (ready : s.workers i = .testDone)
    (going : s.st.done = false) (fine : s.st.err = 0)
    (loads : table.load (loadHash (s.st.cursor * params.chunk.toUInt64)) = object :: rest)
    (past : s.st.cursor * params.chunk.toUInt64 + params.chunk.toUInt64 ≤ object.1)
    : scheduled params table (List.replicate 11 i) s
      = { s with st.cursor := s.st.cursor + 1 } := by
  have passed
      : (fun at_ => workerStep params table at_.1 at_.2)^[11] (s.st, .testDone)
        = ({ s.st with cursor := s.st.cursor + 1 }, .testDone) := by
    simp [workerStep, mode, going, fine, loads, Worker.moved, past, tally_zero_eq]
  rw [scheduled_replicate, ready, passed]
  dsimp only
  rw [← ready, Function.update_eq_self]

def twoThreads : ParParams := { nthreads := 2, chunk := 4 }

def twoObjects : ObjectTable where
  objects := [(1, { dorFid := { fSeq := 7 } }), (5, { dorFid := { fSeq := 9 } })]
  sorted := by decide

/-- Two threads share two chunks with an object each. -/
theorem sharding_exact_twoThreads
    : ∃ trace s, Run (Guarded (Step twoThreads twoObjects) noFault) {} trace s
        ∧ (∀ i, s.workers i = .exited)
        ∧ s.st.totals = twoObjects.total true ∧ s.st.totals.objects = 2 := by
  have run : Run (Guarded (Step twoThreads twoObjects) noFault) {} [] {} := .nil
  have run := run.snoc ⟨.spawn ⟨0, by decide⟩ rfl, nofun⟩
  have run := run.snoc ⟨.spawn ⟨1, by decide⟩ rfl, nofun⟩
  obtain ⟨trace, run⟩ := scheduled_run
    (List.replicate 14 ⟨0, by decide⟩ ++ List.replicate 18 ⟨1, by decide⟩
      ++ List.replicate 20 ⟨0, by decide⟩ ++ List.replicate 5 ⟨1, by decide⟩) run
  have finished := sharding_exact (by decide) (by decide) rfl (by decide) (by decide) run
    (by decide)
  exact ⟨_, _, run, by decide, finished, by rw [finished]; decide⟩

/-- Loading at 0 skips an object numbered 0, so no range ever counts it. -/
theorem sharding_misses_object_zero
    : ∃ (params : ParParams) (table : ObjectTable) (trace : List Event) (s : Harness params),
        1 ≤ params.nthreads ∧ 1 ≤ params.chunk ∧ params.limit = 0
        ∧ Run (Guarded (Step params table) noFault) {} trace s
        ∧ (∀ i, s.workers i = .exited) ∧ s.st.totals ≠ table.total params.recattr := by
  let table : ObjectTable := { objects := [(0, {})], sorted := by decide }
  have run : Run (Guarded (Step { nthreads := 1 } table) noFault) {} [] {} := .nil
  have run := run.snoc ⟨.spawn ⟨0, by decide⟩ rfl, nofun⟩
  obtain ⟨trace, run⟩ := scheduled_run (List.replicate 20 ⟨0, by decide⟩) run
  exact ⟨{ nthreads := 1 }, table, trace, _, by decide, by decide, rfl, run, by decide, by decide⟩

/-- The one range of the baseline ends before the largest object number. -/
theorem baseline_misses_largest_number
    : ∃ (table : ObjectTable) (trace : List Event) (s : Harness { privMode := false }),
        (∀ object ∈ table.objects, 1 ≤ object.1)
        ∧ Run (Guarded (Step { privMode := false } table) noFault) {} trace s
        ∧ (∀ i, s.workers i = .exited) ∧ s.st.totals ≠ table.total true := by
  let table : ObjectTable := { objects := [(~~~0, {})], sorted := by decide }
  have run : Run (Guarded (Step { privMode := false } table) noFault) {} [] {} := .nil
  have run := run.snoc ⟨.spawn ⟨0, by decide⟩ rfl, nofun⟩
  obtain ⟨trace, run⟩ := scheduled_run (List.replicate 20 ⟨0, by decide⟩) run
  exact ⟨table, trace, _, by decide, run, by decide, by decide⟩

/-- Chunks of which 2^33 are all the object numbers there are. -/
def threeThreads : ParParams := { nthreads := 3, chunk := 0x80000000 }

/-- An object in the last chunk but one. -/
def highObject : ObjectTable where
  objects := [(0xffffffff7fffffff, {})]
  sorted := by decide

/-- A worker passes over a chunk below the object. -/
theorem scheduled_below {s : Harness threeThreads} {i : Fin threeThreads.workers}
    (ready : s.workers i = .testDone) (going : s.st.done = false) (fine : s.st.err = 0)
    (below : s.st.cursor.toNat % 2 ^ 33 < 2 ^ 33 - 2)
    : scheduled threeThreads highObject (List.replicate 11 i) s
      = { s with st.cursor := s.st.cursor + 1 } := by
  have number : (0xffffffff7fffffff : UInt64).toNat = 2 ^ 64 - 2 ^ 31 - 1 := by decide
  have chunk : threeThreads.chunk.toUInt64.toNat = 2 ^ 31 := by decide
  have start : (s.st.cursor * threeThreads.chunk.toUInt64).toNat
      = s.st.cursor.toNat % 2 ^ 33 * 2 ^ 31 := by
    rw [UInt64.toNat_mul, chunk]
    omega
  have above : loadHash (s.st.cursor * threeThreads.chunk.toUInt64) < 0xffffffff7fffffff := by
    rw [loadHash_lt (by decide), start, number]
    omega
  refine scheduled_past rfl ready going fine (List.dropWhile_cons_of_neg ?_) ?_
  · simpa using above
  · rw [UInt64.le_iff_toNat_le, UInt64.toNat_add, start, number, chunk]
    omega

/-- So it gets to the chunk of the object, also when the cursor has been around. -/
theorem reaches_object {s : Harness threeThreads} {trace : List Event}
    (run : Run (Guarded (Step threeThreads highObject) noFault) {} trace s)
    {i : Fin threeThreads.workers} (ready : s.workers i = .testDone)
    (going : s.st.done = false) (fine : s.st.err = 0) (n : Nat)
    (below : s.st.cursor.toNat % 2 ^ 33 + n ≤ 2 ^ 33 - 2)
    : ∃ trace, Run (Guarded (Step threeThreads highObject) noFault) {} trace
        { s with st.cursor := s.st.cursor + UInt64.ofNat n } := by
  induction n generalizing s trace with
  | zero => exact ⟨trace, by simpa using run⟩
  | succ n ih =>
      obtain ⟨passed, run⟩ := scheduled_run (List.replicate 11 i) run
      rw [scheduled_below ready going fine (by omega)] at run
      have next : (s.st.cursor + 1).toNat % 2 ^ 33 = s.st.cursor.toNat % 2 ^ 33 + 1 := by
        rw [UInt64.toNat_add]
        show (s.st.cursor.toNat + 1) % 2 ^ 64 % 2 ^ 33 = _
        omega
      obtain ⟨trace, run⟩ := ih run ready going fine (by dsimp only; omega)
      refine ⟨trace, ?_⟩
      rw [UInt64.ofNat_add, UInt64.add_comm (UInt64.ofNat n), ← UInt64.add_assoc]
      exact run

/-- Three workers take the chunk of the object, the last one and, because the cursor wraps, the
first one; the third comes to the object again.
-/
theorem sharding_counts_twice_past_wrap
    : ∃ trace s,
        Run (Guarded (Step threeThreads highObject) noFault) {} trace s
        ∧ (∀ i, s.workers i = .exited)
        ∧ s.st.totals.objects = 2
        ∧ (highObject.total true).objects = 1 := by
  have run : Run (Guarded (Step threeThreads highObject) noFault) {} [] {} := .nil
  have run := run.snoc ⟨.spawn ⟨0, by decide⟩ rfl, nofun⟩
  have run := run.snoc ⟨.spawn ⟨1, by decide⟩ rfl, nofun⟩
  have run := run.snoc ⟨.spawn ⟨2, by decide⟩ rfl, nofun⟩
  have run := run.snoc ⟨.worker ⟨0, by decide⟩, nofun⟩
  obtain ⟨trace, run⟩ := reaches_object run (i := ⟨0, by decide⟩) rfl rfl rfl (2 ^ 33 - 2)
    (by decide)
  obtain ⟨trace, run⟩ := scheduled_run
    (List.replicate 3 ⟨0, by decide⟩ ++ List.replicate 4 ⟨1, by decide⟩ ++ [⟨2, by decide⟩]) run
  obtain ⟨trace, run⟩ := reaches_object run (i := ⟨2, by decide⟩) rfl rfl rfl (2 ^ 33 - 2)
    (by decide)
  obtain ⟨trace, run⟩ := scheduled_run
    (List.replicate 20 ⟨2, by decide⟩ ++ List.replicate 20 ⟨0, by decide⟩
      ++ List.replicate 20 ⟨1, by decide⟩) run
  exact ⟨trace, _, run, by decide, by decide, by decide⟩

end LfuScan.Par
