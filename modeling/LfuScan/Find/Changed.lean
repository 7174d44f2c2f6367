import LfuScan.Find.Since

/-! `find --since` looks up exactly the changed objects, once each. An object comes once for
each burst of its events, with the time of the last one; bursts behind the window are cut
before they count as delivered, and an object that several logs or bursts name is looked up
for the first of them only.
-/

namespace LfuScan.Find

open LfuScan.Foundations LfuScan.Lustre LfuScan.Lustre.LustreFid LfuScan.Changelog

/-- Logs that nothing changes while they are read. -/
def LogSource.static (logs : Nat → Reading) : LogSource Unit where
  first mdt startrec _ :=
    ({ logs mdt with log := ((logs mdt).log.filter (startrec ≤ ·.crIndex)).take 1 }, ())
  recv mdt startrec _ := ({ logs mdt with log := (logs mdt).log.filter (startrec ≤ ·.crIndex) }, ())

section Scans

variable [LustreFid]

/-- What has been looked up after some deliveries of a log: `before` came from earlier logs. A
log's own repeats are known to the scan, those of other logs to the search.
-/
structure LooksUp (param : FindParam) (fssMultiMdt : Bool) (before : List LuFid)
    (sent : Deliveries) (st : FindSinceState) (seen : ScanClSeen)
    : Prop where
  distinct : st.lookedUp.Nodup
  exact
    : ∀ fid, fid ∈ st.lookedUp
        ↔ fid ∈ before
          ∨ ∃ o, (o, true) ∈ sent ∧ o.coFid = fid ∧ param.inWindow o.coTime = true
  repeats : ∀ fid, seen.has fid = true → fid ∈ st.lookedUp
  across : fssMultiMdt = true → ∀ fid, st.fssSeen.has fid = true ↔ fid ∈ st.lookedUp
  alone : fssMultiMdt = false → ∀ fid ∈ st.lookedUp, seen.has fid = true

section Delivery

variable {param : FindParam} {fssMultiMdt : Bool} {before : List LuFid} {sent : Deliveries}
  {st : FindSinceState} {seen : ScanClSeen} {o : ScanClObj} {keyed : Bool}

/-- A delivery for which there is nothing to look up. -/
theorem LooksUp.skip (looks : LooksUp param fssMultiMdt before sent st seen)
    (settled : keyed = true → param.inWindow o.coTime = true → o.coFid ∈ st.lookedUp)
    {allocs : Nat} {seenAfter : ScanClSeen}
    (kept : ∀ fid, seen.has fid = true → seenAfter.has fid = true)
    (known : ∀ fid, seenAfter.has fid = true → seen.has fid = true ∨ fid ∈ st.lookedUp)
    : LooksUp param fssMultiMdt before (sent ++ [(o, keyed)]) { st with allocs } seenAfter := by
  obtain ⟨distinct, exact, repeats, across, alone⟩ := looks
  refine ⟨distinct, fun fid => ?_, fun fid has => (known fid has).elim (repeats fid) id, across,
    fun single fid member => kept fid (alone single fid member)⟩
  rw [exact fid]
  constructor
  · rintro (old | ⟨other, member, named, window⟩)
    · exact .inl old
    · exact .inr ⟨other, List.mem_append_left _ member, named, window⟩
  · rintro (old | ⟨other, member, named, window⟩)
    · exact .inl old
    · rcases List.mem_append.mp member with member | last
      · exact .inr ⟨other, member, named, window⟩
      · cases List.mem_singleton.mp last
        exact (exact fid).mp (named ▸ settled rfl window)

/-- A delivery that is looked up. -/
theorem LooksUp.take (looks : LooksUp param fssMultiMdt before sent st seen)
    (fresh : o.coFid ∉ st.lookedUp) (window : param.inWindow o.coTime = true)
    {after : FindSinceState} (lookedUp : after.lookedUp = st.lookedUp ++ [o.coFid])
    (fssSeen
      : fssMultiMdt = true → after.fssSeen = st.fssSeen.add findFidCmp_comparison o.coFid)
    {seenAfter : ScanClSeen}
    (added : ∀ fid, seenAfter.has fid = (seen.has fid || fid == o.coFid))
    : LooksUp param fssMultiMdt before (sent ++ [(o, true)]) after seenAfter := by
  obtain ⟨distinct, exact, repeats, across, alone⟩ := looks
  refine ⟨?_, fun fid => ?_, ?_, ?_, ?_⟩
  · rw [lookedUp, List.nodup_append_comm]
    exact List.nodup_cons.mpr ⟨fresh, distinct⟩
  · rw [lookedUp, List.mem_append, exact fid, List.mem_singleton, or_assoc]
    refine or_congr_right ⟨?_, ?_⟩
    · rintro (⟨other, member, named, inside⟩ | rfl)
      · exact ⟨other, List.mem_append_left _ member, named, inside⟩
      · exact ⟨o, List.mem_append_right _ List.mem_cons_self, rfl, window⟩
    · rintro ⟨other, member, named, inside⟩
      rcases List.mem_append.mp member with member | last
      · exact .inl ⟨other, member, named, inside⟩
      · cases List.mem_singleton.mp last
        exact .inr named.symm
  · intro fid known
    rw [added, Bool.or_eq_true, beq_iff_eq] at known
    rw [lookedUp, List.mem_append, List.mem_singleton]
    exact known.imp_left (repeats fid)
  · intro multi fid
    rw [fssSeen multi, SearchSet.has_add, lookedUp, List.mem_append, List.mem_singleton,
      across multi fid, or_comm]
  · intro single fid member
    rw [lookedUp, List.mem_append, List.mem_singleton] at member
    rw [added, Bool.or_eq_true, beq_iff_eq]
    exact member.imp_left (alone single fid)

/-- A delivery that reached the callback, which went on. -/
theorem LooksUp.called (looks : LooksUp param fssMultiMdt before sent st seen)
    (live : param.asRecorded = false) (proper : o.Proper keyed)
    (window : param.inWindow o.coTime = true) (new : keyed = true → seen.has o.coFid = false)
    {env : SinceEnv} {result : Int × FindSinceState}
    (ends : CandCbExit param env fssMultiMdt (scanClRecEvent o) st result) (took : result.1 = 0)
    {seenAfter : ScanClSeen}
    (added : ∀ fid, seenAfter.has fid = (seen.has fid || (keyed && fid == o.coFid)))
    : LooksUp param fssMultiMdt before (sent ++ [(o, keyed)]) result.2 seenAfter := by
  cases ends with
  | passed nameless =>
      have loose : keyed = false := by
        by_contra inCache
        have inCache : keyed = true := by simpa using inCache
        rcases nameless with mark | unnamed
        · exact (proper.named inCache).2 mark
        · rw [proper.fid, inCache] at unnamed
          cases unnamed
      simp only [loose, Bool.false_and, Bool.or_false] at added
      exact looks.skip (fun inCache => absurd inCache (by simp [loose]))
        (fun other has => added other ▸ has) fun other has => .inl (added other ▸ has)
  | noMemory => exact absurd took (show -enomem ≠ 0 by decide)
  | known across known =>
      have already : o.coFid ∈ st.lookedUp := (looks.across across _).mp known
      refine looks.skip (fun _ _ => already) (fun other has => ?_) fun other has => ?_
      · rw [added, has]
        rfl
      · rw [added, Bool.or_eq_true, Bool.and_eq_true, beq_iff_eq] at has
        rcases has with old | ⟨_, rfl⟩
        · exact .inl old
        · exact .inr already
  | @fresh allocs named across _ unseen =>
      obtain rfl : keyed = true := proper.fid.symm.trans named
      have candidate := findSinceCandidate_effect param env o.coFid
        { st with fssSeen := st.fssSeen.add findFidCmp_comparison o.coFid, allocs }
      refine looks.take ?_ window (candidate.lookedUp live) (fun _ => candidate.fssSeen) added
      intro known
      rw [← looks.across across, show st.fssSeen.has o.coFid = false from unseen] at known
      cases known
  | alone named unchecked =>
      obtain rfl : keyed = true := proper.fid.symm.trans named
      have single : fssMultiMdt = false := unchecked.resolve_right (by simp [live])
      have candidate := findSinceCandidate_effect param env o.coFid st
      refine looks.take (fun known => ?_) window (candidate.lookedUp live)
        (fun multi => absurd multi (by simp [single])) added
      exact absurd (looks.alone single _ known) (by simp [new rfl])

end Delivery

theorem looksUp_kept (site : Site) {param : FindParam} (env : SinceEnv) (fssMultiMdt : Bool)
    (live : param.asRecorded = false) (mdt : Nat) (before : List LuFid)
    : KeptByDelivery (sinceScanParams site param mdt) (sinceConsumer param env fssMultiMdt)
        (LooksUp param fssMultiMdt before) := by
  intro sent st seen o keyed after seenAfter looks proper settles
  obtain ⟨last, _, tells⟩ := proper.tells
  obtain ⟨reached, asked, _⟩ :=
    findSinceFilterCb_effect param (show (scanClRecEvent o).lfsrValid.event = true from tells.event)
      st
  change _ = (if param.inWindow o.coTime then 0 else 1, _) at asked
  have once : (sinceScanParams site param mdt).once = true := by
    simp [sinceScanParams, live]
  -- the anchor does not matter here
  replace looks : LooksUp param fssMultiMdt before sent { st with fssReached := reached } seen :=
    ⟨looks.distinct, looks.exact, looks.repeats, looks.across, looks.alone⟩
  cases settles with
  | filtered rejected =>
      rw [sinceConsumer_verdict, asked] at rejected ⊢
      refine looks.skip (fun _ window => ?_) (fun _ => id) fun _ => .inl
      simp [window] at rejected
  | repeated _ _ known =>
      rw [sinceConsumer_verdict, asked]
      exact looks.skip (fun _ _ => looks.repeats _ known) (fun _ => id) fun _ => .inl
  | taken passed new took added =>
      rw [sinceConsumer_verdict, asked] at passed took ⊢
      rw [once, Bool.and_true] at new added
      have window : param.inWindow o.coTime = true := by
        by_contra outside
        simp [outside] at passed
      exact looks.called live proper window new
        (findSinceCandCb_exit param env fssMultiMdt (scanClRecEvent o) _) took added

/-- The objects some record of a log names at or after the anchor. -/
def ChangedIn (since : Int) (log : List ChangelogRec) (fid : LuFid) : Prop :=
  ∃ r ∈ log, fid ∈ scanClRecFids r ∧ since ≤ r.seconds

omit [LustreFid] in
theorem inWindow_iff {param : FindParam} {since : Int} (anchor : param.fpSince = .time since)
    (r : ChangelogRec)
    : param.inWindow r.seconds = true ↔ since ≤ r.seconds := by
  have positive : 0 ≤ r.seconds := Int.natCast_nonneg _
  have cut : param.since = since := by rw [FindParam.since, anchor]
  rw [FindParam.inWindow, cut, Bool.or_eq_true, beq_iff_eq, decide_eq_true_eq]
  exact ⟨fun window => by omega, .inr⟩

/-- What a log's deliveries have in the window is what changed: the last event of a burst is
its latest.
-/
theorem LooksUp.changed {param : FindParam} {since : Int} (anchor : param.fpSince = .time since)
    {fssMultiMdt : Bool} {before : List LuFid} {sent : Deliveries} {st : FindSinceState}
    {seen : ScanClSeen} (looks : LooksUp param fssMultiMdt before sent st seen)
    {log : List ChangelogRec} (covers : Covers log sent)
    (ordered : log.Pairwise (·.seconds ≤ ·.seconds)) (fid : LuFid)
    : fid ∈ st.lookedUp ↔ fid ∈ before ∨ ChangedIn since log fid := by
  rw [looks.exact fid]
  refine or_congr_right ⟨?_, ?_⟩
  · rintro ⟨o, member, rfl, window⟩
    obtain ⟨last, gathered, tells, _⟩ := covers.last ordered member
    refine ⟨last, (covers.events_sublist member).subset gathered, covers.about member gathered, ?_⟩
    rwa [tells.coTime, inWindow_iff anchor] at window
  · rintro ⟨r, member, about, inside⟩
    obtain ⟨o, delivered, named, gathered⟩ := covers.delivered member about
    obtain ⟨last, _, tells, latest⟩ := covers.last ordered delivered
    refine ⟨o, delivered, named, ?_⟩
    rw [tells.coTime, inWindow_iff anchor]
    rcases latest r gathered with rfl | later
    · exact inside
    · exact Int.le_trans inside later

/-- Without a cookie no log is checked. -/
theorem recheck_unanchored (site : Site) {param : FindParam} {W : Type} {logs : LogSource W}
    (cookie : param.fpSinceCookie = none) (starts : Anchors) (later : Bool) (mdt : Nat) (w : W)
    : recheck site param logs starts later mdt w = (0, w) := by
  simp [recheck, cookie]

/-- What has been looked up once the logs of some MDTs have been read. -/
structure LookedUp (since : Int) (logs : Nat → Reading) (fssMultiMdt : Bool) (done : List Nat)
    (st : FindSinceState)
    : Prop where
  distinct : st.lookedUp.Nodup
  exact : ∀ fid, fid ∈ st.lookedUp ↔ ∃ mdt ∈ done, ChangedIn since (logs mdt).log fid
  across : fssMultiMdt = true → ∀ fid, st.fssSeen.has fid = true ↔ fid ∈ st.lookedUp

section Loop

variable (site : Site) {param : FindParam} (env : SinceEnv) {logs : Nat → Reading}
  {since : Int} (anchor : param.fpSince = .time since) (live : param.fpChangelogMdt = none)
  (cookie : param.fpSinceCookie = none)
  (increasing : ∀ mdt, (logs mdt).log.Pairwise (·.crIndex < ·.crIndex))
  (ordered : ∀ mdt, (logs mdt).log.Pairwise (·.seconds ≤ ·.seconds))

include anchor live cookie increasing ordered

theorem scanMdt_lookedUp (starts : Anchors) (fssMultiMdt : Bool) {done : List Nat} (mdt : Nat)
    (several : fssMultiMdt = true ∨ done = []) (p : Progress Unit)
    (before : LookedUp since logs fssMultiMdt done p.st)
    : let result := scanMdt site param env (.static logs) starts fssMultiMdt mdt p
      0 ≤ result.1
        → result.1 = 0 ∧ LookedUp since logs fssMultiMdt (done ++ [mdt]) result.2.st := by
  have recorded : param.asRecorded = false := by simp [FindParam.asRecorded, live]
  have startrec : param.startrec (starts mdt) = 0 := by
    simp [FindParam.startrec, anchor, cookie]
  have whole : ((LogSource.static logs).recv mdt (param.startrec (starts mdt)) p.world).1.log
      = (logs mdt).log := by
    rw [startrec]
    exact List.filter_eq_self.mpr fun r _ => decide_eq_true (UInt64.zero_le)
  have first : LooksUp param fssMultiMdt p.st.lookedUp []
      { p.st with fssReached := p.reached mdt } {} := by
    refine ⟨before.distinct, by simp, fun fid has => absurd has Bool.false_ne_true,
      before.across, ?_⟩
    intro single fid member
    obtain ⟨other, scanned, _⟩ := (before.exact fid).mp member
    rw [several.resolve_left (by simp [single])] at scanned
    cases scanned
  intro result ok
  obtain ⟨ok, _, _, sent, seen, looks, covers⟩ :=
    scanMdt_covers site param env (.static logs) starts fssMultiMdt mdt p
      (looksUp_kept site env fssMultiMdt recorded mdt p.st.lookedUp) first
      (whole ▸ increasing mdt) ok
  rw [whole] at covers
  refine ⟨ok, looks.distinct, fun fid => ?_, looks.across⟩
  rw [looks.changed anchor covers (ordered mdt) fid, before.exact fid]
  simp [or_and_right, exists_or]

theorem mdtLoop_lookedUp (starts : Anchors) (fssMultiMdt : Bool) (mdts done : List Nat)
    (several : fssMultiMdt = true ∨ (done ++ mdts).length ≤ 1) (later : Bool)
    (p : Progress Unit) (before : LookedUp since logs fssMultiMdt done p.st)
    : let result := mdtLoop site param env (.static logs) starts fssMultiMdt mdts later 0 p
      0 ≤ result.1 → LookedUp since logs fssMultiMdt (done ++ mdts) result.2.st := by
  induction mdts generalizing done later p with
  | nil =>
      intro _ _
      rw [List.append_nil]
      exact before
  | cons mdt rest ih =>
      have alone : fssMultiMdt = true ∨ done = [] := by
        refine several.imp_right fun single => List.eq_nil_of_length_eq_zero ?_
        rw [List.length_append, List.length_cons] at single
        omega
      have one := scanMdt_lookedUp site env anchor live cookie increasing ordered starts
        fssMultiMdt mdt alone p before
      unfold mdtLoop
      simp only [recheck_unanchored site cookie, Int.lt_irrefl, if_false]
      dsimp only at one
      split
      · rename_i failed
        exact fun ok => absurd ok (Int.not_le.mpr failed)
      · rename_i ok
        obtain ⟨zero, after⟩ := one (Int.not_lt.mp ok)
        rw [List.append_cons] at several ⊢
        rw [zero]
        exact ih _ several _ _ after

end Loop

-----------------------------------------------------------------------------------------
-- What stops a run
-----------------------------------------------------------------------------------------

/-- Nothing stops the run: what precedes the scans succeeds, there is memory, the logs are
read to their ends, and a lookup that fails found the object gone or may fail.
-/
structure Unhindered (site : Site) (param : FindParam) (env : SinceEnv) (logs : Nat → Reading)
    (file : Option Bytes)
    : Prop where
  prepared : ∃ prepared, findSincePrepare site param env file = .ok prepared
  memory : ∀ n, env.memory n = true
  scanMemory : ∀ mdt n, (logs mdt).env.memory n = true
  opened : ∀ mdt, 0 ≤ (logs mdt).env.startRc
  ended : ∀ mdt, (logs mdt).readEnd = 1
  lookups
    : ∀ n, (env.lookup n).rc = 0
        ∨ ((env.lookup n).rc = -enoent ∨ (env.lookup n).rc = -estale)
          ∧ (env.lookup n).cbCalled = false
        ∨ param.fpStopOnError = false

section Unhindered

variable {site : Site} {param : FindParam} {env : SinceEnv} {logs : Nat → Reading}
  {file : Option Bytes} (free : Unhindered site param env logs file)
  (live : param.asRecorded = false)

include free live

omit [LustreFid] in
theorem findSinceCandidate_free (fid : LuFid) (st : FindSinceState)
    : (findSinceCandidate param env fid st).1 = 0 := by
  have answered := free.lookups st.lookedUp.length
  unfold findSinceCandidate
  simp only [live, Bool.false_and, Bool.false_eq_true, if_false, Bool.not_false, if_true]
  generalize env.lookup st.lookedUp.length = answer at answered ⊢
  split
  · rfl
  rename_i there
  split
  · rfl
  rename_i stops
  rcases answered with ok | ⟨gone, uncalled⟩ | goesOn
  · exact ok
  · exact absurd (by simp [gone, uncalled]) there
  · have error := answer.error
    simp [goesOn] at stops
    exact Int.le_antisymm error stops

omit [LustreFid] in
theorem sinceConsumer_free (fssMultiMdt : Bool) (mdt : Nat)
    : Stops (logs mdt).env (sinceConsumer param env fssMultiMdt) fun _ => False := by
  refine ⟨fun rec st fails => ?_, fun rec st fails => ?_, fun n fails => ?_⟩
  · rw [sinceConsumer_verdict] at fails
    unfold findSinceFilterCb at fails
    dsimp only at fails
    split at fails <;> exact absurd fails (by simp)
  · have ends := findSinceCandCb_exit param env fssMultiMdt rec st
    change (findSinceCandCb param env fssMultiMdt rec st).1 ≠ 0 at fails
    generalize findSinceCandCb param env fssMultiMdt rec st = result at ends fails
    cases ends with
    | passed => exact fails rfl
    | noMemory full => simp [free.memory] at full
    | known => exact fails rfl
    | fresh => exact fails (findSinceCandidate_free free live _ _)
    | alone => exact fails (findSinceCandidate_free free live _ _)
  · simp [free.scanMemory] at fails

theorem scanMdt_free (starts : Anchors) (fssMultiMdt : Bool) (mdt : Nat) (p : Progress Unit)
    : (scanMdt site param env (.static logs) starts fssMultiMdt mdt p).1 = 0 := by
  have begun : Starts (sinceScanParams site param mdt) (logs mdt).env :=
    ⟨by simp [ScanParams.refused, sinceScanParams], free.scanMemory mdt 0,
      fun resolve => absurd resolve (by simp [sinceScanParams]), free.opened mdt⟩
  have unstopped := llapiScanChangelog_stopRc (sinceScanParams site param mdt)
    (sinceConsumer_free free live fssMultiMdt mdt)
  have returned := llapiScanChangelog_rc (sinceConsumer param env fssMultiMdt) begun
  rcases returned _ (logs mdt).readEnd _ with stopped | ⟨_, ended⟩
  · exact absurd ((unstopped _ _ _).resolve_right id) stopped.1
  · exact ended.resolve_right fun other => other.2 (free.ended mdt)

theorem mdtLoop_free (cookie : param.fpSinceCookie = none) (starts : Anchors)
    (fssMultiMdt : Bool) (mdts : List Nat) (later : Bool) (p : Progress Unit)
    : (mdtLoop site param env (.static logs) starts fssMultiMdt mdts later 0 p).1 = 0 := by
  induction mdts generalizing later p with
  | nil => rfl
  | cons mdt rest ih =>
      unfold mdtLoop
      simp only [recheck_unanchored site cookie, scanMdt_free free live, Int.lt_irrefl, if_false]
      exact ih _ _

end Unhindered

/-- `find --since` looks up exactly the objects that changed, each once, unless something stops
it.
-/
theorem find_since_looks_up_changed (site : Site) (param : FindParam) (env : SinceEnv)
    (logs : Nat → Reading) (file : Option Bytes) (since : Int)
    (anchor : param.fpSince = .time since) (live : param.fpChangelogMdt = none)
    (increasing : ∀ mdt, (logs mdt).log.Pairwise (·.crIndex < ·.crIndex))
    (ordered : ∀ mdt, (logs mdt).log.Pairwise (·.seconds ≤ ·.seconds))
    : let run := llapiFindSince site param env (.static logs) file ()
      (Unhindered site param env logs file → run.scansRc = some 0)
        ∧ (run.scansRc = some 0
          → run.st.lookedUp.Nodup
            ∧ ∀ fid, fid ∈ run.st.lookedUp
                ↔ ∃ mdt < env.bound, env.present mdt = true
                  ∧ ChangedIn since (logs mdt).log fid) := by
  have recorded : param.asRecorded = false := by simp [FindParam.asRecorded, live]
  cases prepared : findSincePrepare site param env file with
  | error rc =>
      refine ⟨fun free => ?_, fun scanned => ?_⟩
      · obtain ⟨_, ok⟩ := free.prepared
        rw [prepared] at ok
        cases ok
      · simp [llapiFindSince, prepared] at scanned
  | ok ready =>
      obtain ⟨mdts, starts⟩ := ready
      obtain ⟨setup, _, covered⟩ := findSincePrepare_ok prepared
      have cookie : param.fpSinceCookie = none :=
        (findSinceSetup_ok setup).resolve_right (by simp [anchor])
      have covers (mdt : Nat) : mdt ∈ mdts ↔ mdt < env.bound ∧ env.present mdt = true := by
        unfold findSinceMdts at covered
        rw [live] at covered
        dsimp only at covered
        split at covered
        · cases covered
        · cases covered
          simp
      have several : decide (mdts.length > 1) = true ∨ ([] ++ mdts).length ≤ 1 := by
        rw [decide_eq_true_eq, List.nil_append]
        omega
      have looked := mdtLoop_lookedUp site env anchor live cookie increasing ordered starts
        (decide (mdts.length > 1)) mdts [] several false { reached := starts, world := () }
        ⟨List.nodup_nil, by simp, fun _ fid => by simp⟩
      simp only [llapiFindSince, prepared, cookie, Int.lt_irrefl, if_false]
      refine ⟨fun free => congrArg some ?_, fun scanned => ?_⟩
      · exact mdtLoop_free free recorded cookie starts _ mdts false _
      · obtain ⟨distinct, exact, _⟩ := looked (by rw [Option.some.inj scanned])
        refine ⟨distinct, fun fid => (exact fid).trans ?_⟩
        simp [covers, and_assoc]

end Scans

/-- Two logs: an object both of them name, and one with a burst on either side of the anchor.
-/
theorem find_since_looks_up_changed_bursts
    : letI := plainFid
      let param : FindParam := { fpSince := .time 900 }
      let env : SinceEnv :=
        {
          mdtBound := 2
          present := fun mdt => decide (mdt < 2)
          fourDigits := fun mdt there => Nat.lt_trans (of_decide_eq_true there) (by decide)
        }
      let event (index time : UInt64) (oid : UInt32) : ChangelogRec :=
        { crIndex := index, crTime := time <<< 30, crTfid := { fSeq := 0x400, fOid := oid } }
      let logs (mdt : Nat) : Reading :=
        {
          log :=
            if mdt = 0 then [event 1 50 1, event 2 60 2, event 3 1000 1, event 4 1000 3]
            else [event 7 1000 3]
        }
      let run := llapiFindSince lustreSite param env (.static logs) none ()
      run.st.lookedUp.Nodup
        ∧ run.st.lookedUp = [{ fSeq := 0x400, fOid := 1 }, { fSeq := 0x400, fOid := 3 }] := by
  intro param env event logs run
  have looks := @find_since_looks_up_changed plainFid lustreSite param env logs none 900 rfl rfl
    (fun mdt => by
      dsimp only [logs]
      split <;> decide)
    (fun mdt => by
      dsimp only [logs]
      split <;> decide)
  exact ⟨(looks.2 (by decide +kernel)).1, by decide +kernel⟩

end LfuScan.Find
