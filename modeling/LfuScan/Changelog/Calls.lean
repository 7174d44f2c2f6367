import LfuScan.Changelog.Clear

/-! What stops a scan: a value the filter or the callback returned, or an allocation that
failed. A scan that nothing stopped has read the whole log.
-/

namespace LfuScan.Changelog

open LfuScan.Lustre LfuScan.Foundations

variable {σ : Type}

def ClEvent.readRecord? : ClEvent → Option ChangelogRec
  | .read r => some r
  | _ => none

/-- The records read, in their order. -/
def recordsRead (trace : List ClEvent) : List ChangelogRec := trace.filterMap ClEvent.readRecord?

theorem recordsRead_append (before after : List ClEvent)
    : recordsRead (before ++ after) = recordsRead before ++ recordsRead after :=
  List.filterMap_append

/-- What the filter says of a record, and the data it leaves. -/
def Consumer.verdict (consumer : Consumer σ) (rec : LlapiScanRec) (data : σ) : Int × σ :=
  match consumer.scFilter with
  | none => (0, data)
  | some scFilter => scFilter rec data

variable [LustreFid]

theorem Consumer.ask_verdict (consumer : Consumer σ) (rec : LlapiScanRec) (s : ScanCl σ)
    : consumer.ask rec s
      = ((consumer.verdict rec s.slData).1,
          { s with slData := (consumer.verdict rec s.slData).2 }) := by
  unfold Consumer.ask Consumer.verdict
  cases consumer.scFilter <;> rfl

/-- The values that may stop the scan. -/
structure Stops (env : ScanEnv) (consumer : Consumer σ) (stops : Int → Prop) : Prop where
  filter : ∀ rec data, (consumer.verdict rec data).1 < 0 → stops (consumer.verdict rec data).1
  callback : ∀ rec data, (consumer.cb rec data).1 ≠ 0 → stops (consumer.cb rec data).1
  memory : ∀ n, env.memory n = false → stops (-enomem)

/-- A call of the scan's functions: it reads nothing and records no stop, and what it returns
is 0 or may stop the scan.
-/
structure Call (stops : Int → Prop) (s : ScanCl σ) (result : Int × ScanCl σ) : Prop where
  returns : result.1 ≠ 0 → stops result.1
  stopRc : result.2.slStopRc = s.slStopRc
  read : recordsRead result.2.trace = recordsRead s.trace

section Calls

variable {stops : Int → Prop} {s : ScanCl σ}

/-- Nothing but the data, the cache and the counters has changed. -/
theorem Call.ok {after : ScanCl σ} (stopRc : after.slStopRc = s.slStopRc)
    (read : recordsRead after.trace = recordsRead s.trace)
    : Call stops s (0, after) :=
  ⟨fun failed => absurd rfl failed, stopRc, read⟩

/-- A call that ends with what another one returned. -/
theorem Call.return {mid : Int × ScanCl σ} (call : Call stops s mid) {after : ScanCl σ}
    (stopRc : after.slStopRc = mid.2.slStopRc) (trace : after.trace = mid.2.trace)
    : Call stops s (mid.1, after) :=
  ⟨call.returns, stopRc.trans call.stopRc, (congrArg recordsRead trace).trans call.read⟩

/-- A call from a state that another call left. -/
theorem Call.from {mid : ScanCl σ} {result : Int × ScanCl σ} (call : Call stops mid result)
    (stopRc : mid.slStopRc = s.slStopRc) (read : recordsRead mid.trace = recordsRead s.trace)
    : Call stops s result :=
  ⟨call.returns, call.stopRc.trans stopRc, call.read.trans read⟩

variable (sc : ScanParams) {env : ScanEnv} {consumer : Consumer σ}
  (may : Stops env consumer stops)

include may

theorem scanClDeliver_call (s : ScanCl σ) (o : ScanClObj) (keyed : Bool)
    : Call stops s (scanClDeliver sc env consumer s o keyed) := by
  have effect := scanClDeliver_effect sc env consumer s o keyed
  have read : recordsRead (scanClDeliver sc env consumer s o keyed).2.trace
      = recordsRead s.trace := by
    obtain ⟨extra, trace, settled⟩ := effect.trace
    have none : recordsRead extra = [] := by
      apply List.filterMap_eq_nil_iff.mpr
      intro event member
      obtain ⟨how, rfl⟩ := settled event member
      rfl
    rw [trace, recordsRead_append, none, List.append_nil]
  have accepted (mid : ScanCl σ) (index : UInt64) (same : mid.slStopRc = s.slStopRc)
      : (scanClAccept mid index).slStopRc = s.slStopRc := by
    unfold scanClAccept
    split <;> exact same
  suffices ends : ((scanClDeliver sc env consumer s o keyed).1 ≠ 0
        → stops (scanClDeliver sc env consumer s o keyed).1)
      ∧ (scanClDeliver sc env consumer s o keyed).2.slStopRc = s.slStopRc from
    ⟨ends.1, ends.2, read⟩
  unfold scanClDeliver
  simp only [consumer.ask_verdict]
  split
  · exact ⟨fun failed => absurd rfl failed, accepted _ _ (by rfl)⟩
  split
  · rename_i failed
    exact ⟨fun _ => may.filter _ _ failed, rfl⟩
  split
  · exact ⟨fun failed => absurd rfl failed, accepted _ _ (by rfl)⟩
  split
  · exact ⟨fun failed => may.callback _ _ failed, rfl⟩
  split
  · have added := s.slSeen.add_exit env.memory s.allocs o.coFid
    split
    · rename_i failed
      obtain ⟨full, n, memory⟩ := added.failed failed
      exact ⟨fun _ => full ▸ may.memory n memory, rfl⟩
    · exact ⟨fun failed => absurd rfl failed, accepted _ _ (by rfl)⟩
  · exact ⟨fun failed => absurd rfl failed, accepted _ _ (by rfl)⟩

theorem flushLoop_call (all : Bool) (aged : List ObjPtr) (s : ScanCl σ)
    : Call stops s (flushLoop sc env consumer all aged s) := by
  induction aged generalizing s with
  | nil => exact .ok rfl rfl
  | cons p rest ih =>
      have one := scanClDeliver_call sc may s (s.objs p) true
      unfold flushLoop
      split
      · exact .ok rfl rfl
      dsimp only
      split
      · exact one.return rfl rfl
      · exact (ih _).from one.stopRc one.read

theorem eventLoop_call (r : ChangelogRec) (fids : List (Option LuFid)) (s : ScanCl σ)
    : Call stops s (eventLoop sc env consumer r fids s) := by
  induction fids generalizing s with
  | nil => exact .ok rfl rfl
  | cons fid rest ih =>
      unfold eventLoop
      generalize scanClAbsorb env.memory s.allocs {} r fid = made
      have one : Call stops s
          (scanClDeliver sc env consumer { s with allocs := made.2 } made.1 false) :=
        (scanClDeliver_call sc may _ made.1 false).from (by rfl) (by rfl)
      dsimp only
      split
      · exact one.return rfl rfl
      · exact (ih _).from one.stopRc one.read

theorem scanClEvent_call (s : ScanCl σ) (r : ChangelogRec)
    : Call stops s (scanClEvent sc env consumer s r) := by
  have loop := eventLoop_call sc may r (eventFids r) s
  unfold scanClEvent
  dsimp only
  split
  · exact loop.return rfl rfl
  · exact .ok loop.stopRc loop.read

theorem objectAgain_call (s : ScanCl σ) (r : ChangelogRec) (fid : LuFid) (p : ObjPtr)
    : Call stops s (objectAgain sc env consumer s r fid p) := by
  have one (mid : ScanCl σ) (o : ScanClObj) := scanClDeliver_call sc may mid o true
  unfold objectAgain
  dsimp only
  split
  · split
    · exact (one _ _).from (by rfl) (by rfl)
    · exact .ok (one _ _).stopRc (one _ _).read
  · exact .ok rfl rfl

theorem objectNew_call (s : ScanCl σ) (r : ChangelogRec) (fid : LuFid)
    : Call stops s (objectNew sc env consumer s r fid) := by
  have one (mid : ScanCl σ) (o : ScanClObj) := scanClDeliver_call sc may mid o true
  unfold objectNew
  dsimp only
  split
  · rename_i full
    have memory : env.memory s.allocs = false := by simpa using full
    refine ⟨fun _ => may.memory _ memory, rfl, ?_⟩
    dsimp only
    rw [recordsRead_append]
    exact List.append_nil _
  split
  · split
    · exact .ok rfl rfl
    split
    · exact (one _ _).from (by rfl) (by rfl)
    · exact .ok (one _ _).stopRc (one _ _).read
  · exact .ok rfl rfl

theorem objectLoop_call (r : ChangelogRec) (fids : List LuFid) (s : ScanCl σ)
    : Call stops s (objectLoop sc env consumer r fids s) := by
  induction fids generalizing s with
  | nil => exact .ok rfl rfl
  | cons fid rest ih =>
      have one : Call stops s (scanClObjectOne sc env consumer s r fid) := by
        unfold scanClObjectOne
        split
        · exact objectAgain_call sc may s r fid _
        · exact objectNew_call sc may s r fid
      unfold objectLoop
      dsimp only
      split
      · exact one.return rfl rfl
      · exact (ih _).from one.stopRc one.read

theorem scanRecord_call (s : ScanCl σ) (r : ChangelogRec)
    : Call stops s (scanRecord sc env consumer s r) := by
  have object (s : ScanCl σ) : Call stops s (scanClObject sc env consumer s r) := by
    unfold scanClObject
    dsimp only
    split
    · exact scanClEvent_call sc may s r
    · exact objectLoop_call sc may r _ s
  unfold scanRecord
  dsimp only
  cases sc.coalesce with
  | true =>
      simp only [if_true]
      split
      · exact (object _).from (by rfl) (by rfl)
      · exact (flushLoop_call sc may false _ _).from (object _).stopRc (object _).read
  | false =>
      simp only [Bool.false_eq_true, if_false]
      split
      · exact (scanClEvent_call sc may _ r).from (by rfl) (by rfl)
      · exact .ok (scanClEvent_call sc may _ r).stopRc (scanClEvent_call sc may _ r).read

end Calls

section Scan

variable (sc : ScanParams) (env : ScanEnv)

/-- A clear changes neither the cache nor the consumer, reads nothing and stops nothing. -/
theorem scanClClear_frame (s : ScanCl σ) (final : Bool)
    : let after := scanClClear sc env s final
      after.slData = s.slData ∧ after.slSeen = s.slSeen ∧ SameCache s after
        ∧ after.slStopRc = s.slStopRc ∧ recordsRead after.trace = recordsRead s.trace := by
  have clear (upto : UInt64)
      : recordsRead (s.trace ++ [.clear upto]) = recordsRead s.trace := by
    rw [recordsRead_append]
    exact List.append_nil _
  unfold scanClClear
  dsimp only
  split
  · exact ⟨rfl, rfl, .of_eq rfl rfl rfl rfl rfl, rfl, rfl⟩
  split
  · exact ⟨rfl, rfl, .of_eq rfl rfl rfl rfl rfl, rfl, rfl⟩
  split
  · exact ⟨rfl, rfl, .of_eq rfl rfl rfl rfl rfl, rfl, rfl⟩
  split
  · exact ⟨rfl, rfl, .of_eq rfl rfl rfl rfl rfl, rfl, rfl⟩
  split <;> exact ⟨rfl, rfl, .of_eq rfl rfl rfl rfl rfl, rfl, clear _⟩

variable {sc env} {consumer : Consumer σ} {stops : Int → Prop}

theorem scanLoop_stopRc (sc : ScanParams) (may : Stops env consumer stops) (readEnd : Int)
    (log : List ChangelogRec) (s : ScanCl σ)
    : let result := scanLoop sc env consumer readEnd log s
      result.2.slStopRc = s.slStopRc ∨ stops result.2.slStopRc := by
  induction log generalizing s with
  | nil => exact .inl rfl
  | cons r rest ih =>
      have record := scanRecord_call sc may
        { s with slNow := r.seconds, trace := s.trace ++ [.read r] } r
      have cleared := (scanClClear_frame sc env (scanRecord sc env consumer
        { s with slNow := r.seconds, trace := s.trace ++ [.read r] } r).2 false).2.2.2.1
      unfold scanLoop
      dsimp only at record cleared ih ⊢
      split
      · exact .inl rfl
      split
      · rename_i failed
        exact .inr (record.returns (by simpa using failed))
      split
      · exact .inl (cleared.trans record.stopRc)
      · exact (ih _).imp_left fun same => same.trans (cleared.trans record.stopRc)

/-- Without a last record, what is not stopped reads everything. -/
theorem scanLoop_recordsRead (env : ScanEnv) (consumer : Consumer σ)
    (unbounded : sc.endrec = 0) (readEnd : Int) (log : List ChangelogRec) (s : ScanCl σ)
    : let result := scanLoop sc env consumer readEnd log s
      result.2.slStopRc = 0
        → recordsRead result.2.trace = recordsRead s.trace ++ log ∧ result.1 = readEnd := by
  have any : Stops env consumer fun _ => True := ⟨by simp, by simp, by simp⟩
  induction log generalizing s with
  | nil =>
      intro _ _
      exact ⟨(List.append_nil _).symm, rfl⟩
  | cons r rest ih =>
      have record := (scanRecord_call sc any
        { s with slNow := r.seconds, trace := s.trace ++ [.read r] } r).read
      have cleared := (scanClClear_frame sc env (scanRecord sc env consumer
        { s with slNow := r.seconds, trace := s.trace ++ [.read r] } r).2 false).2.2.2.2
      have more (upto : UInt64 → Bool) : (sc.endrec != 0 && upto sc.endrec) = false := by
        simp [unbounded]
      unfold scanLoop
      simp only [more (r.crIndex > ·), more (r.crIndex ≥ ·), Bool.false_eq_true, if_false]
      dsimp only at record cleared ih
      split
      · rename_i failed
        exact fun unstopped => absurd unstopped (by simpa using failed)
      · intro unstopped
        obtain ⟨read, ended⟩ := ih _ unstopped
        rw [read, cleared, record, recordsRead_append, List.append_assoc]
        exact ⟨rfl, ended⟩

theorem scanFinish_call (sc : ScanParams) (may : Stops env consumer stops) (rc : Int)
    (s : ScanCl σ)
    : let result := scanFinish sc env consumer rc s
      (result.2.slStopRc = s.slStopRc ∨ s.slStopRc = 0 ∧ stops result.2.slStopRc)
        ∧ recordsRead result.2.trace = recordsRead s.trace := by
  have cleared (read : Int) (mid : ScanCl σ)
      (ends : (mid.slStopRc = s.slStopRc ∨ s.slStopRc = 0 ∧ stops mid.slStopRc)
        ∧ recordsRead mid.trace = recordsRead s.trace)
      : let after := if read ≥ 0 then scanClClear sc env mid true else mid
        (after.slStopRc = s.slStopRc ∨ s.slStopRc = 0 ∧ stops after.slStopRc)
          ∧ recordsRead after.trace = recordsRead s.trace := by
    dsimp only
    split
    · obtain ⟨_, _, _, stopRc, read⟩ := scanClClear_frame sc env mid true
      rw [stopRc, read]
      exact ends
    · exact ends
  refine cleared _ _ ?_
  split
  · rename_i unstopped
    rw [Bool.and_eq_true, beq_iff_eq] at unstopped
    have flushed := flushLoop_call sc may true s.slAged s
    unfold scanClFlush
    dsimp only
    split
    · rename_i failed
      exact ⟨.inr ⟨unstopped.1, flushed.returns (by simpa using failed)⟩, flushed.read⟩
    · exact ⟨.inl flushed.stopRc, flushed.read⟩
  · exact ⟨.inl rfl, rfl⟩

/-- The scan gets as far as reading. -/
structure Starts (sc : ScanParams) (env : ScanEnv) : Prop where
  accepted : sc.refused = false
  memory : env.memory 0 = true
  mounted : sc.resolve = true → 0 ≤ env.mntRc
  opened : 0 ≤ env.startRc

/-- What a scan does once it has started. -/
theorem llapiScanChangelog_of_starts (consumer : Consumer σ) (starts : Starts sc env)
    (log : List ChangelogRec) (readEnd : Int) (data : σ)
    : llapiScanChangelog sc env consumer log readEnd data
      = scanFinish sc env consumer
          (scanLoop sc env consumer readEnd log { slData := data, allocs := 1 }).1
          (scanLoop sc env consumer readEnd log { slData := data, allocs := 1 }).2 := by
  unfold llapiScanChangelog
  have mounted : (sc.resolve && decide (env.mntRc < 0)) = false := by
    cases resolve : sc.resolve with
    | false => rfl
    | true =>
        have mounted := starts.mounted resolve
        simpa using mounted
  simp [starts.accepted, starts.memory, mounted, Int.not_lt.mpr starts.opened]

/-- A scan that returns no error has started. -/
theorem starts_of_llapiScanChangelog (accepted : sc.refused = false) (log : List ChangelogRec)
    (readEnd : Int) (data : σ)
    : 0 ≤ (llapiScanChangelog sc env consumer log readEnd data).1 → Starts sc env := by
  unfold llapiScanChangelog
  simp only [accepted, Bool.false_eq_true, if_false]
  split
  · exact fun ok => absurd ok (show ¬0 ≤ -enomem by decide)
  rename_i memory
  split
  · rename_i unmounted
    rw [Bool.and_eq_true, decide_eq_true_eq] at unmounted
    exact fun ok => absurd ok (Int.not_le.mpr unmounted.2)
  rename_i mounted
  split
  · rename_i unopened
    exact fun ok => absurd ok (Int.not_le.mpr unopened)
  rename_i opened
  refine fun _ => ⟨accepted, by simpa using memory, fun resolve => ?_, Int.not_lt.mp opened⟩
  simpa [resolve] using mounted

/-- Whatever stopped the scan is a value that may. -/
theorem llapiScanChangelog_stopRc (sc : ScanParams) (may : Stops env consumer stops)
    (log : List ChangelogRec) (readEnd : Int) (data : σ)
    : let result := llapiScanChangelog sc env consumer log readEnd data
      result.2.slStopRc = 0 ∨ stops result.2.slStopRc := by
  unfold llapiScanChangelog
  dsimp only
  split
  · exact .inl rfl
  split
  · exact .inl rfl
  split
  · exact .inl rfl
  split
  · exact .inl rfl
  have loop := scanLoop_stopRc sc may readEnd log { slData := data, allocs := 1 }
  generalize scanLoop sc env consumer readEnd log { slData := data, allocs := 1 } = result
    at loop ⊢
  rcases (scanFinish_call sc may result.1 result.2).1 with same | ⟨_, stopped⟩
  · rw [same]
    exact loop
  · exact .inr stopped

/-- A scan that nothing stopped has read the whole log, and returns what ended it. -/
theorem llapiScanChangelog_recordsRead (unbounded : sc.endrec = 0) (starts : Starts sc env)
    (log : List ChangelogRec) (readEnd : Int) (data : σ)
    : let result := llapiScanChangelog sc env consumer log readEnd data
      result.2.slStopRc = 0
        → recordsRead result.2.trace = log
          ∧ result.1 = if readEnd == 1 then 0 else readEnd := by
  rw [llapiScanChangelog_of_starts consumer starts]
  have any : Stops env consumer fun _ => True := ⟨by simp, by simp, by simp⟩
  have loop := scanLoop_recordsRead env consumer unbounded readEnd log
    { slData := data, allocs := 1 }
  generalize scanLoop sc env consumer readEnd log { slData := data, allocs := 1 } = result
    at loop ⊢
  obtain ⟨stopRc, read⟩ := scanFinish_call sc any result.1 result.2
  intro _ unstopped
  obtain ⟨whole, ended⟩ := loop <| by
    rcases stopRc with same | ⟨unstopped, _⟩
    · exact same.symm.trans unstopped
    · exact unstopped
  refine ⟨read.trans whole, ?_⟩
  have returned : (scanFinish sc env consumer result.1 result.2).1
      = if (scanFinish sc env consumer result.1 result.2).2.slStopRc != 0
        then (scanFinish sc env consumer result.1 result.2).2.slStopRc
        else if result.1 == 1 then 0 else result.1 := rfl
  rw [returned, unstopped, ended]
  rfl

/-- What a scan that has started returns. -/
theorem llapiScanChangelog_rc (consumer : Consumer σ) (starts : Starts sc env)
    (log : List ChangelogRec) (readEnd : Int) (data : σ)
    : let result := llapiScanChangelog sc env consumer log readEnd data
      result.2.slStopRc ≠ 0 ∧ result.1 = result.2.slStopRc
        ∨ result.2.slStopRc = 0 ∧ (result.1 = 0 ∨ result.1 = readEnd ∧ readEnd ≠ 1) := by
  have loop (log : List ChangelogRec) (s : ScanCl σ)
      : (scanLoop sc env consumer readEnd log s).1 = readEnd
        ∨ (scanLoop sc env consumer readEnd log s).1 = 0 := by
    induction log generalizing s with
    | nil => exact .inl rfl
    | cons r rest ih =>
        unfold scanLoop
        dsimp only
        split
        · exact .inr rfl
        split
        · exact .inr rfl
        split
        · exact .inr rfl
        · exact ih _
  rw [llapiScanChangelog_of_starts consumer starts]
  have ends := loop log { slData := data, allocs := 1 }
  generalize scanLoop sc env consumer readEnd log { slData := data, allocs := 1 } = result
    at ends ⊢
  unfold scanFinish
  dsimp only
  generalize (if (if result.1 == 1 then 0 else result.1) ≥ 0 then _ else _ : ScanCl σ) = s
  by_cases stopped : s.slStopRc = 0
  · refine .inr ⟨stopped, ?_⟩
    simp only [stopped, bne_self_eq_false, Bool.false_eq_true, if_false, beq_iff_eq]
    split
    · exact .inl rfl
    · rename_i other
      rcases ends with ends | ends
      · exact .inr ⟨ends, ends ▸ other⟩
      · exact .inl ends
  · refine .inl ⟨stopped, ?_⟩
    simp [stopped]

/-- If everything that may stop the scan is an error, a scan without an error was not stopped.
-/
theorem llapiScanChangelog_unstopped (accepted : sc.refused = false)
    (may : Stops env consumer (· < 0)) (log : List ChangelogRec) {readEnd : Int}
    (ended : readEnd = 1 ∨ readEnd < 0) (data : σ)
    : let result := llapiScanChangelog sc env consumer log readEnd data
      0 ≤ result.1 → result.1 = 0 ∧ Starts sc env ∧ result.2.slStopRc = 0 := by
  intro result ok
  have starts := starts_of_llapiScanChangelog accepted log readEnd data ok
  have may := llapiScanChangelog_stopRc sc may log readEnd data
  have returned : _ ∨ _ := llapiScanChangelog_rc consumer starts log readEnd data
  change result.2.slStopRc = 0 ∨ result.2.slStopRc < 0 at may
  change result.2.slStopRc ≠ 0 ∧ result.1 = result.2.slStopRc
    ∨ result.2.slStopRc = 0 ∧ (result.1 = 0 ∨ result.1 = readEnd ∧ readEnd ≠ 1) at returned
  rcases returned with ⟨stopped, same⟩ | ⟨unstopped, returned⟩
  · omega
  · exact ⟨by omega, starts, unstopped⟩

end Scan

end LfuScan.Changelog
