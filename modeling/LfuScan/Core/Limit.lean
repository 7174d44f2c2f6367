import LfuScan.Core.Coverage

/-! A scan by one worker with a limit. The counter of emitted records is compared with the
limit where it is raised; every loop then looks at the stop flag before its next step.
-/

namespace LfuScan.Core

open LfuScan.Lustre LfuScan.Filter LfuScan.Foundations

/-- The records among the lines printed; the diagnostic lines of the verbose mode are none. -/
def records (lines : List Line) : List Line := lines.filter (·.diagnostic.isNone)

/-- Records are printed, and not only counted. -/
def LfuOpts.prints (o : LfuOpts) : Bool := !o.quiet && !o.verbose

/-- What decides which records there are: the context without counters, without a limit, and
with its records printed.
-/
def LfuCtx.plain (cx : LfuCtx) : LfuCtx :=
  {
    cx with
    o := { cx.o with limit := 0, quiet := false, verbose := false }
    st := 0
    stop := false
  }

/-- Contexts that decide alike, the second one printing its records. -/
structure Alike (cx other : LfuCtx) : Prop where
  same : cx.plain = other.plain
  prints : other.o.prints = true

/-- A step has emitted these records: it printed them if records are printed, counted them,
and was stopped by them if that reached the limit.
-/
structure Emits (cx : LfuCtx) (result : LfuCtx × List Line) (recs : List Line) : Prop where
  one : recs.length ≤ 1
  plain : result.1.plain = cx.plain
  limit : result.1.o = cx.o
  lines : records result.2 = if cx.o.prints then recs else []
  emitted : result.1.st.emitted = cx.st.emitted + UInt64.ofNat recs.length
  stop
    : result.1.stop
      = (cx.stop || (recs.length == 1 && cx.o.limit != 0
          && decide (result.1.st.emitted ≥ cx.o.limit)))

section Steps

variable {env : Platform} {cx other : LfuCtx} {rec : LfuRec} {eas : Option LfuEas}

theorem Emits.nothing {after : LfuCtx} (o : after.o = cx.o) (plain : after.plain = cx.plain)
    (emitted : after.st.emitted = cx.st.emitted) (stop : after.stop = cx.stop)
    : Emits cx (after, []) [] where
  one := Nat.zero_le _
  plain
  limit := o
  lines := (ite_self _).symm
  emitted := emitted.trans (UInt64.add_zero _).symm
  stop := stop.trans (Bool.or_false _).symm

/-- What comes before the counter is raised does not matter. -/
theorem Emits.after {before : LfuCtx} {result : LfuCtx × List Line} {recs : List Line}
    (emits : Emits cx result recs) (o : cx.o = before.o) (plain : cx.plain = before.plain)
    (emitted : cx.st.emitted = before.st.emitted) (stop : cx.stop = before.stop)
    : Emits before result recs where
  one := emits.one
  plain := emits.plain.trans plain
  limit := emits.limit.trans o
  lines := by rw [emits.lines, o]
  emitted := by rw [emits.emitted, emitted]
  stop := by rw [emits.stop, stop, o]

theorem Emits.diagnosed {result : LfuCtx × List Line} {recs diagnostic : List Line}
    (emits : Emits cx result recs) (unrecorded : records diagnostic = [])
    : Emits cx (result.1, diagnostic ++ result.2) recs :=
  {
    emits with
    lines := by
      rw [← emits.lines, records, List.filter_append]
      exact congrArg (· ++ _) unrecorded
  }

theorem emitObject_emits (alike : Alike cx other) (m : LfuMatch)
    : Emits cx (emitObject cx rec m) (emitObject other rec m).2 := by
  have ops : cx.ops = other.ops := (congrArg LfuCtx.ops alike.same :)
  have line : (emitObject other rec m).2 = [lfuEmit cx none rec (m == .unknown)] := by
    simp only [emitObject, lfuEmit, ops]
    exact if_pos alike.prints
  rw [line]
  simp only [emitObject]
  refine ⟨Nat.le_refl _, ?_, ?_, ?_, ?_, ?_⟩
  · split <;> rfl
  · split <;> rfl
  · change records (if cx.o.prints then _ else _) = _
    split <;> rfl
  · split <;> rfl
  · split
    · rename_i reached
      change true = (cx.stop || (true && cx.o.limit != 0 && _))
      rw [Bool.true_and, reached, Bool.or_true]
    · rename_i unreached
      change cx.stop = (cx.stop || (true && cx.o.limit != 0 && _))
      rw [Bool.true_and, Bool.eq_false_iff.mpr unreached, Bool.or_false]

/-- The context after an undecided object. -/
def LfuCtx.undecided (cx : LfuCtx) : LfuCtx :=
  { cx with st := { cx.st with unknown := cx.st.unknown + 1 } }

theorem judgeObject_emits (alike : Alike cx other)
    : Emits cx (judgeObject env cx rec eas) (judgeObject env other rec eas).2 := by
  have pushed : cx.ops.pushdown = other.ops.pushdown :=
    (congrArg (fun cx => cx.ops.pushdown) alike.same :)
  have wanted : cx.o.emitUnknown = other.o.emitUnknown :=
    (congrArg (fun cx => cx.o.emitUnknown) alike.same :)
  have verdict : objectVerdict env cx rec eas = objectVerdict env other rec eas :=
    (congrArg (fun cx => objectVerdict env cx rec eas) alike.same :)
  unfold judgeObject
  rw [verdict]
  cases objectVerdict env other rec eas with
  | noMatch => exact .nothing rfl rfl rfl rfl
  | matched => exact emitObject_emits alike .matched
  | unknown =>
      simp only [pushed, wanted]
      split
      · exact emitObject_emits alike .unknown
      · split
        · have counted : Alike cx.undecided other.undecided := ⟨alike.same, alike.prints⟩
          exact (emitObject_emits counted .unknown).after rfl rfl rfl rfl
        · exact .nothing rfl rfl rfl rfl

theorem showObject_emits (alike : Alike cx other) (c : LfuClass)
    : Emits cx (showObject env cx c rec eas) (showObject env other c rec eas).2 := by
  have hidden : hiddenClass cx.o c = hiddenClass other.o c :=
    (congrArg (fun cx => hiddenClass cx.o c) alike.same :)
  have marked
      : records (if cx.o.verbose && !cx.o.quiet then [lfuEmit cx (some c) rec false] else [])
        = [] := by
    split <;> rfl
  have silent : (other.o.verbose && !other.o.quiet) = false := by
    have prints := alike.prints
    unfold LfuOpts.prints at prints
    cases verbose : other.o.verbose <;> simp_all
  unfold showObject
  simp only [hidden, silent, Bool.false_eq_true, if_false, List.nil_append]
  split
  · have nothing : Emits cx (cx, []) [] := .nothing rfl rfl rfl rfl
    simpa using nothing.diagnosed marked
  · exact (judgeObject_emits alike).diagnosed marked

theorem lfuObject_emits (alike : Alike cx other) (haveLma : Bool)
    : Emits cx (lfuObject env cx rec haveLma eas) (lfuObject env other rec haveLma eas).2 := by
  simp only [lfuObject]
  generalize lfuClassify rec haveLma = c
  have needs : (countClass cx c).needs = (countClass other c).needs :=
    (congrArg LfuCtx.needs alike.same :)
  have record : (decodeObject (countClass cx c) rec eas).2
      = (decodeObject (countClass other c) rec eas).2 := by
    rw [decodeObject_rec, decodeObject_rec, needs]
  obtain ⟨reads, state⟩ := decodeObject_state (countClass cx c) rec eas
  obtain ⟨reads', state'⟩ := decodeObject_state (countClass other c) rec eas
  rw [record]
  have decoded : Alike (decodeObject (countClass cx c) rec eas).1
      (decodeObject (countClass other c) rec eas).1 := by
    rw [state, state']
    exact ⟨alike.same, alike.prints⟩
  refine (showObject_emits decoded c).after ?_ ?_ ?_ ?_
  all_goals
    rw [state]
    rfl

/-- The prefilter rejects the same objects, and emits nothing. -/
theorem lfuPrefilter_alike (alike : Alike cx other) (rec : LfuRec)
    : (lfuPrefilter cx rec).1 = (lfuPrefilter other rec).1 := by
  rw [lfuPrefilter_survives, lfuPrefilter_survives]
  exact (congrArg (fun cx => !lfuFilterActive cx.o.filter || cx.ops.pushdown
    || lfuFilterTier0 cx.o.filter rec cx.now) alike.same :)

theorem visitObject_emits (alike : Alike cx other) (haveLma : Bool)
    : Emits cx (visitObject env cx rec haveLma eas)
        (visitObject env other rec haveLma eas).2 := by
  have state := lfuPrefilter_state cx rec
  have state' := lfuPrefilter_state other rec
  simp only [visitObject, lfuPrefilter_alike alike] at state ⊢
  cases survives : (lfuPrefilter other rec).1 with
  | true =>
      rw [survives, if_pos rfl] at state state'
      simp only [state, state', if_true]
      exact lfuObject_emits alike haveLma
  | false =>
      rw [survives, if_neg Bool.false_ne_true] at state
      rw [state]
      exact .nothing rfl rfl rfl rfl

/-- The record an entry is good for. -/
def entryRecords (env : Platform) (cx : LfuCtx) (entry : Visit) : List Line :=
  (visitEntry env cx.plain entry).2

theorem visitEntry_emits (env : Platform) (cx : LfuCtx) {entry : Visit}
    (mine : entry.own.emitted = 0)
    : Emits cx (visitEntry env cx entry) (entryRecords env cx entry) := by
  have emitted : (lfuStatsMerge cx.st entry.own).emitted = cx.st.emitted := by
    simp [lfuStatsMerge, mine]
  unfold entryRecords visitEntry
  cases entry.object with
  | none => exact .nothing rfl rfl emitted rfl
  | some parts =>
      obtain ⟨rec, haveLma, eas⟩ := parts
      have alike : Alike { cx with st := lfuStatsMerge cx.st entry.own }
          { cx.plain with st := lfuStatsMerge cx.plain.st entry.own } :=
        ⟨rfl, rfl⟩
      exact (visitObject_emits alike haveLma).after rfl rfl emitted rfl

end Steps

section Entries

variable {env : Platform} {cx : LfuCtx} {entries : List Visit}

/-- The records of a list of entries. -/
def allRecords (env : Platform) (cx : LfuCtx) (entries : List Visit) : List Line :=
  entries.flatMap (entryRecords env cx)

theorem allRecords_plain {other : LfuCtx} (same : cx.plain = other.plain)
    : allRecords env cx entries = allRecords env other entries := by
  unfold allRecords entryRecords
  rw [same]

theorem visitEntries_plain (mine : ∀ entry ∈ entries, entry.own.emitted = 0)
    : (visitEntries env cx entries).1.plain = cx.plain := by
  induction entries generalizing cx with
  | nil => rfl
  | cons entry rest ih =>
      obtain ⟨first, others⟩ := List.forall_mem_cons.mp mine
      unfold visitEntries
      split
      · rfl
      · exact (ih others).trans (visitEntry_emits env cx first).plain

theorem visitEntries_unlimited (noLimit : cx.o.limit = 0) (going : cx.stop = false)
    (mine : ∀ entry ∈ entries, entry.own.emitted = 0)
    : records (visitEntries env cx entries).2
      = if cx.o.prints then allRecords env cx entries else [] := by
  induction entries generalizing cx with
  | nil => exact (ite_self _).symm
  | cons entry rest ih =>
      obtain ⟨first, others⟩ := List.forall_mem_cons.mp mine
      have emits := visitEntry_emits env cx first
      obtain ⟨limit, stop, _⟩ := visitEntry_kept env noLimit going entry
      simp only [visitEntries, going, Bool.false_eq_true, if_false]
      rw [records, List.filter_append]
      change records _ ++ records _ = _
      rw [emits.lines, ih limit stop others, emits.limit, allRecords_plain emits.plain]
      split <;> rfl

/-- What a loop has done when it ends: printed and counted the first records, as many as were
left to the limit, and stopped if that was all of them.
-/
structure CutOff (cx : LfuCtx) (result : LfuCtx × List Line) (recs : List Line) (quota : Nat)
    : Prop where
  lines : records result.2 = if cx.o.prints then recs.take quota else []
  emitted : result.1.st.emitted.toNat = cx.st.emitted.toNat + min quota recs.length
  stop : result.1.stop = decide (quota ≤ recs.length)

theorem records_append (first others : List Line)
    : records (first ++ others) = records first ++ records others :=
  List.filter_append _ _

/-- One entry, and the rest of the loop unless the entry has stopped it. -/
theorem Emits.cutOff {first rest : LfuCtx × List Line} {recs others : List Line}
    (emits : Emits cx first recs) (going : cx.stop = false)
    (below : cx.st.emitted.toNat < cx.o.limit.toNat)
    (stopped : first.1.stop = true → rest = (first.1, []))
    (cut
      : first.1.stop = false
        → first.1.st.emitted.toNat < first.1.o.limit.toNat
        → CutOff first.1 rest others (first.1.o.limit.toNat - first.1.st.emitted.toNat))
    : CutOff cx (rest.1, first.2 ++ rest.2) (recs ++ others)
        (cx.o.limit.toNat - cx.st.emitted.toNat) := by
  have bound := cx.o.limit.toNat_lt
  have limited : (cx.o.limit != 0) = true := by
    refine bne_iff_ne.mpr fun zero => ?_
    rw [zero] at below
    exact Nat.not_lt_zero _ below
  obtain ⟨one, _, limit, lines, emitted, stop⟩ := emits
  rcases recs with _ | ⟨r, _ | ⟨_, _⟩⟩
  · -- nothing emitted: as many records are left as before
    have same : first.1.st.emitted = cx.st.emitted := by simpa using emitted
    have went : first.1.stop = false := by simpa [going] using stop
    rw [same, limit] at cut
    have cut := cut went below
    refine ⟨?_, by rw [cut.emitted, same]; rfl, cut.stop⟩
    rw [records_append, lines, cut.lines, limit]
    split <;> rfl
  · have raised : first.1.st.emitted.toNat = cx.st.emitted.toNat + 1 := by
      rw [emitted, UInt64.toNat_add]
      exact Nat.mod_eq_of_lt (by simp; omega)
    have stops : first.1.stop = decide (cx.o.limit.toNat ≤ cx.st.emitted.toNat + 1) := by
      rw [stop, going, limited, ← raised]
      simp [UInt64.le_iff_toNat_le]
    by_cases last : cx.o.limit.toNat ≤ cx.st.emitted.toNat + 1
    · -- the last one: the loop is stopped before the rest
      have quota : cx.o.limit.toNat - cx.st.emitted.toNat = 1 := by omega
      rw [decide_eq_true last] at stops
      rw [stopped stops, List.append_nil, quota]
      refine ⟨?_, ?_, ?_⟩
      · rw [lines]
        split <;> rfl
      · rw [raised]
        simp
      · rw [stops]
        simp
    · rw [decide_eq_false last] at stops
      rw [raised, limit] at cut
      have cut := cut stops (Nat.not_le.mp last)
      obtain ⟨quota, left⟩ : ∃ quota, cx.o.limit.toNat - cx.st.emitted.toNat = quota + 1 :=
        ⟨cx.o.limit.toNat - cx.st.emitted.toNat - 1, by omega⟩
      rw [← Nat.sub_sub, left, Nat.add_sub_cancel] at cut
      rw [left]
      refine ⟨?_, ?_, ?_⟩
      · rw [records_append, lines, cut.lines, limit]
        split <;> rfl
      · rw [cut.emitted, raised, List.length_append, List.length_singleton]
        omega
      · rw [cut.stop, List.length_append, List.length_singleton]
        simp only [decide_eq_decide]
        omega
  · simp at one

theorem visitEntries_limited (going : cx.stop = false)
    (below : cx.st.emitted.toNat < cx.o.limit.toNat)
    (mine : ∀ entry ∈ entries, entry.own.emitted = 0)
    : CutOff cx (visitEntries env cx entries) (allRecords env cx entries)
        (cx.o.limit.toNat - cx.st.emitted.toNat) := by
  induction entries generalizing cx with
  | nil =>
      refine ⟨?_, by simp [allRecords, visitEntries], ?_⟩
      · simp [allRecords, visitEntries, records]
      · rw [visitEntries, going, eq_comm, decide_eq_false_iff_not]
        exact Nat.not_le.mpr (Nat.sub_pos_of_lt below)
  | cons entry rest ih =>
      obtain ⟨first, others⟩ := List.forall_mem_cons.mp mine
      have emits := visitEntry_emits env cx first
      have all : allRecords env cx (entry :: rest)
          = entryRecords env cx entry ++ allRecords env (visitEntry env cx entry).1 rest := by
        rw [allRecords_plain emits.plain]
        rfl
      rw [all]
      simp only [visitEntries, going, Bool.false_eq_true, if_false]
      exact emits.cutOff going below (fun stopped => visitEntries_stopped env stopped rest)
        fun went left => ih went left others

end Entries

-----------------------------------------------------------------------------------------
-- One worker
-----------------------------------------------------------------------------------------

/-- The `scan_chunk` of a backend: the context and lines after it, and the return code with
`*done`, or `none` while it waits for something.
-/
abbrev ScanChunk := LfuCtx → Nat → LfuCtx × List Line × Option (Int × Bool)

/-- `lfu_worker_main` of a worker that is alone, from a chunk on and for so many chunks. -/
def lfuWorkerMain (scanChunk : ScanChunk) : Nat → Nat → LfuCtx → LfuCtx × List Line
  | 0, _, cx => (cx, [])
  | left + 1, idx, cx =>
      if cx.stop then
        (cx, [])
      else
        let (cx, lines, outcome) := scanChunk cx idx
        match outcome with
        | none => (cx, lines)
        | some (rc, done) =>
            if rc != 0 then
              (cx, lines)
            else if done || cx.stop then
              (cx, lines)
            else
              let others := lfuWorkerMain scanChunk left (idx + 1) cx
              (others.1, lines ++ others.2)

/-- A call visits the entries of its chunk. Unless it is stopped it ends with the outcome of
the chunk, and if the scan goes on it has done nothing else.
-/
structure Visiting (env : Platform) (scanChunk : ScanChunk) (plain : LfuCtx)
    (chunk : Nat → List Visit) (outcome : Nat → Option (Int × Bool))
    : Prop where
  mine : ∀ idx, ∀ entry ∈ chunk idx, entry.own.emitted = 0
  visits
    : ∀ cx idx,
        cx.plain = plain
        → cx.stop = false
        → let scanned := scanChunk cx idx
          let visited := visitEntries env cx (chunk idx)
          scanned.2.1 = visited.2
          ∧ scanned.1.st.emitted = visited.1.st.emitted
          ∧ scanned.1.stop = visited.1.stop
          ∧ (visited.1.stop = false
              → scanned.2.2 = outcome idx
                ∧ (outcome idx = some (0, false) → scanned.1 = visited.1))

/-- The entries of the chunks up to the one that ends the scan. -/
def scannedEntries (chunk : Nat → List Visit) (outcome : Nat → Option (Int × Bool))
    : Nat → Nat → List Visit
  | 0, _ => []
  | left + 1, idx =>
      chunk idx
        ++ if outcome idx = some (0, false) then scannedEntries chunk outcome left (idx + 1)
          else []

section Worker

variable {env : Platform} {scanChunk : ScanChunk} {plain : LfuCtx} {chunk : Nat → List Visit}
  {outcome : Nat → Option (Int × Bool)} (visiting : Visiting env scanChunk plain chunk outcome)
include visiting

theorem scannedEntries_mine (left idx : Nat)
    : ∀ entry ∈ scannedEntries chunk outcome left idx, entry.own.emitted = 0 := by
  induction left generalizing idx with
  | zero => exact fun _ member => nomatch member
  | succ left ih =>
      intro entry member
      rcases List.mem_append.mp member with here | later
      · exact visiting.mine idx entry here
      · split at later
        · exact ih (idx + 1) entry later
        · cases later

/-- The worker is one loop over the entries of its chunks. -/
theorem lfuWorkerMain_visits (left idx : Nat) (cx : LfuCtx) (same : cx.plain = plain)
    (going : cx.stop = false)
    : let worked := lfuWorkerMain scanChunk left idx cx
      let visited := visitEntries env cx (scannedEntries chunk outcome left idx)
      worked.2 = visited.2 ∧ worked.1.st.emitted = visited.1.st.emitted := by
  induction left generalizing idx cx with
  | zero => exact ⟨rfl, rfl⟩
  | succ left ih =>
      obtain ⟨lines, emitted, stop, ends⟩ := visiting.visits cx idx same going
      have kept : (visitEntries env cx (chunk idx)).1.plain = cx.plain :=
        visitEntries_plain (visiting.mine idx)
      simp only [lfuWorkerMain, scannedEntries, going, Bool.false_eq_true, if_false,
        visitEntries_append]
      generalize scanChunk cx idx = scanned at lines emitted stop ends ⊢
      generalize visitEntries env cx (chunk idx) = visited at lines emitted stop ends kept ⊢
      obtain ⟨after, printed, ended⟩ := scanned
      dsimp only at lines emitted stop ends ⊢
      cases halted : visited.1.stop with
      | true =>
          have halts : after.stop = true := stop.trans halted
          rw [visitEntries_stopped env halted, List.append_nil]
          cases ended with
          | none => exact ⟨lines, emitted⟩
          | some result =>
              simp only [halts, Bool.or_true, if_true, ite_self]
              exact ⟨lines, emitted⟩
      | false =>
          obtain ⟨same', next⟩ := ends halted
          subst same'
          by_cases more : outcome idx = some (0, false)
          · obtain rfl : after = visited.1 := next more
            obtain ⟨otherLines, otherEmitted⟩ := ih (idx + 1) _ (kept.trans same) halted
            simp only [more, if_true, halted, Bool.or_false, Bool.false_eq_true, if_false,
              bne_self_eq_false]
            exact ⟨by rw [lines, otherLines], otherEmitted⟩
          · rw [if_neg more, visitEntries, List.append_nil]
            cases result : outcome idx with
            | none => exact ⟨lines, emitted⟩
            | some result' =>
                obtain ⟨rc, done⟩ := result'
                have ended : rc ≠ 0 ∨ done = true := by
                  by_contra neither
                  rw [not_or, not_not, Bool.not_eq_true] at neither
                  rw [result, neither.1, neither.2] at more
                  exact more rfl
                rcases ended with failed | done
                · simp only [bne_iff_ne.mpr failed, if_true]
                  exact ⟨lines, emitted⟩
                · simp only [done, Bool.true_or, if_true, ite_self]
                  exact ⟨lines, emitted⟩

end Worker

/-- A scan by one worker, from the first chunk on. -/
def scanAlone (scanChunk : ScanChunk) (ops : LfuTargetOps) (now : Int) (chunks : Nat)
    (o : LfuOpts)
    : LfuCtx × List Line :=
  lfuWorkerMain scanChunk chunks 0 (workerCtx o ops now)

/-- The limited scan prints the first `n` records of the free one, and has counted as many;
where nothing prints them, the records are those the free scan would print.
-/
structure FirstRecords (n : UInt64) (limited free : LfuOpts → LfuCtx × List Line)
    (o : LfuOpts)
    : Prop where
  printed
    : records (limited { o with limit := n }).2
      = (records (free { o with limit := 0 }).2).take n.toNat
  counted
    : (limited { o with limit := n }).1.st.emitted.toNat
      = min n.toNat
          (records (free { o with limit := 0, quiet := false, verbose := false }).2).length

/-- Two calls that visit the same entries with the same outcomes. -/
theorem Visiting.firstRecords {env : Platform} {limited free : ScanChunk} {o : LfuOpts}
    {ops : LfuTargetOps} {now : Int} {chunk : Nat → List Visit}
    {outcome : Nat → Option (Int × Bool)}
    (visiting : Visiting env limited (workerCtx o ops now).plain chunk outcome)
    (other : Visiting env free (workerCtx o ops now).plain chunk outcome) (n : UInt64)
    (positive : n ≠ 0) (chunks : Nat)
    : FirstRecords n (scanAlone limited ops now chunks) (scanAlone free ops now chunks) o := by
  have mine := scannedEntries_mine visiting chunks 0
  have below : 0 < n.toNat :=
    Nat.pos_of_ne_zero fun zero => positive (UInt64.toNat_inj.mp zero)
  -- the three contexts decide alike, so they have the same records
  let entries := scannedEntries chunk outcome chunks 0
  let recs := allRecords env (workerCtx o ops now) entries
  have cut : CutOff (workerCtx { o with limit := n } ops now)
      (visitEntries env (workerCtx { o with limit := n } ops now) entries) recs n.toNat :=
    visitEntries_limited rfl below mine
  have whole
      : records (visitEntries env (workerCtx { o with limit := 0 } ops now) entries).2
        = if o.prints then recs else [] :=
    visitEntries_unlimited rfl rfl mine
  have spoken
      : records
          (visitEntries env
            (workerCtx { o with limit := 0, quiet := false, verbose := false } ops now) entries).2
        = recs :=
    visitEntries_unlimited rfl rfl mine
  obtain ⟨lines, emitted⟩ := lfuWorkerMain_visits visiting chunks 0
    (workerCtx { o with limit := n } ops now) rfl rfl
  obtain ⟨freeLines, _⟩ := lfuWorkerMain_visits other chunks 0
    (workerCtx { o with limit := 0 } ops now) rfl rfl
  obtain ⟨spokenLines, _⟩ := lfuWorkerMain_visits other chunks 0
    (workerCtx { o with limit := 0, quiet := false, verbose := false } ops now) rfl rfl
  constructor
  · rw [scanAlone, scanAlone, lines, freeLines, cut.lines, whole]
    change (if o.prints then _ else _) = _
    split <;> simp
  · rw [scanAlone, scanAlone, emitted, spokenLines, cut.emitted, spoken]
    exact Nat.zero_add _

end LfuScan.Core
