import LfuScan.Find.Anchors

/-! Sequences of runs with one cookie. All that a run knows of those before it is the file,
so what it says is read back by each run, whatever number of MDTs that run expects.
-/

namespace LfuScan.Find

open LfuScan.Foundations LfuScan.Lustre LfuScan.Changelog Journal

-----------------------------------------------------------------------------------------
-- One run
-----------------------------------------------------------------------------------------

/-- What a run makes of the anchors it read. -/
structure Outcome (site : Site) (env : SinceEnv) (anchors : Anchors) (file : Option Bytes)
    (w : World) (run : SinceRun World)
    : Prop where
  later : w.Later run.world
  covered : ∀ mdt ∈ run.mdts, mdt < env.bound ∧ env.present mdt = true
  failed : run.rc ≠ 0 → run.file = file
  resumed
    : run.rc = 0
        → ∃ reached : Anchors,
            (∀ mdt ∈ run.mdts, ∃ scan,
              run.scans.filter (·.mdt = mdt) = [scan]
              ∧ scan.mdt = mdt
              ∧ Resumed (anchors mdt) (reached mdt) scan
              ∧ scan.after.Later run.world)
            ∧ (run.file = file
              ∨ ∃ text,
                  findCookieWrite site
                      (fun mdt => if mdt ∈ run.mdts then reached mdt else anchors mdt) env.bound
                    = .ok text
                  ∧ run.file = some text)

theorem findSinceMdts_ok {site : Site} {param : FindParam} {env : SinceEnv} {mdts : List Nat}
    (ok : findSinceMdts site param env = .ok mdts)
    : (∀ mdt ∈ mdts, mdt < env.bound ∧ env.present mdt = true) ∧ mdts.Nodup := by
  have all : (∀ mdt ∈ (List.range env.bound).filter env.present,
        mdt < env.bound ∧ env.present mdt = true)
      ∧ ((List.range env.bound).filter env.present).Nodup :=
    ⟨fun mdt member => (List.mem_filter.mp member).imp_left List.mem_range.mp,
      List.nodup_range.filter _⟩
  unfold findSinceMdts at ok
  dsimp only at ok
  generalize (List.range env.bound).filter env.present = every at all ok
  split at ok
  · split at ok
    · cases ok
    · cases ok
      exact all
  split at ok
  · split at ok
    · cases ok
    · cases ok
      exact all
  split at ok
  · cases ok
  · rename_i found
    cases ok
    exact ⟨by simpa using all.1 _ (List.mem_of_find?_eq_some found), List.nodup_singleton _⟩

theorem findSinceStarts_ok {site : Site} {param : FindParam} {env : SinceEnv}
    {file : Option Bytes} {cookie : Bytes} (given : param.fpSinceCookie = some cookie)
    {starts : Anchors} (ok : findSinceStarts site param env file = .ok starts)
    : findCookieRead site env.bound file = .ok starts := by
  unfold findSinceStarts at ok
  rw [given] at ok
  simp only [Option.isNone_some, Bool.false_eq_true, if_false] at ok
  split at ok
  · cases ok
  split at ok
  · cases ok
  · exact ok

theorem findCookieCheck_later [LustreFid] (site : Site) (plans : Nat → ReadPlan) (cookie : Bytes)
    (probeRc : Int) (mdts : List Nat) (starts : Anchors) (w : World)
    : w.Later (findCookieCheck site (.live plans) cookie probeRc mdts starts w).2 := by
  unfold findCookieCheck
  split
  · exact .refl w
  split
  · exact .refl w
  · exact (cookieCheckLoop_evolves site plans mdts w).1

theorem findCookieCheck_checked [LustreFid] (site : Site) (plans : Nat → ReadPlan) (cookie : Bytes)
    (probeRc : Int) {mdts : List Nat} (distinct : mdts.Nodup) {starts : Anchors} {w : World}
    (logged : ∀ mdt, starts mdt ≠ 0 → ∃ r, r ∈ (w.logs mdt).history)
    : let result := findCookieCheck site (.live plans) cookie probeRc mdts starts w
      ¬result.1 < 0
        → ∀ mdt ∈ mdts.head?, starts mdt ≠ 0 → Checked (result.2.logs mdt) (starts mdt) := by
  unfold findCookieCheck
  split
  · exact fun ok => absurd (show -einval < 0 by decide) ok
  split
  · exact fun ok => absurd ‹_› ok
  intro _ ok mdt head anchored
  cases mdts with
  | nil => cases head
  | cons first rest =>
      obtain rfl : first = mdt := Option.some.inj head
      obtain ⟨r, logged⟩ := logged first anchored
      exact cookieCheckLoop_checked site plans (List.nodup_cons.mp distinct).1 anchored logged ok

theorem findSinceRc_of_neg (param : FindParam) (env : SinceEnv) (st : FindSinceState) (rc : Int)
    (failed : rc < 0)
    : findSinceRc param env st rc = rc := by
  have nonzero : (rc == 0) = false := beq_eq_false_iff_ne.mpr (Int.ne_of_lt failed)
  simp [findSinceRc, nonzero]

/-- The cookie a run leaves: rewritten as a whole, by a run that nothing failed, or as it was.
-/
inductive Leaves (site : Site) (env : SinceEnv) (mdts : List Nat) (starts reached : Anchors)
    (file : Option Bytes) (rc : Int)
    : Int × Option Bytes → Prop
  | kept {failed : Int} (negative : rc < 0 → failed < 0)
    : Leaves site env mdts starts reached file rc (failed, file)
  | rewritten {text : Bytes} (ok : rc = 0)
    (written
      : findCookieWrite site (fun mdt => if mdt ∈ mdts then reached mdt else starts mdt) env.bound
          = .ok text)
    : Leaves site env mdts starts reached file rc (0, some text)

theorem findSinceRewrite_leaves (site : Site) (env : SinceEnv) (mdts : List Nat)
    (starts reached : Anchors) (file : Option Bytes) (rc : Int)
    : Leaves site env mdts starts reached file rc
        (if rc == 0 then findSinceRewrite site env mdts starts reached file else (rc, file)) := by
  split
  · rename_i ok
    have ok : rc = 0 := by simpa using ok
    unfold findSinceRewrite
    dsimp only
    split
    · exact .kept (by omega)
    split
    · exact .kept (by omega)
    · exact .rewritten ok ‹_›
  · exact .kept id

/-- Each MDT was scanned once. -/
theorem Resumption.only {starts : Anchors} {mdts : List Nat} {p q : Progress World}
    (resumption : Resumption starts mdts p q) (first : p.scans = []) (distinct : mdts.Nodup)
    {mdt : Nat} (member : mdt ∈ mdts)
    : ∃ scan,
        q.scans.filter (·.mdt = mdt) = [scan]
        ∧ scan.mdt = mdt
        ∧ Resumed (starts mdt) (q.reached mdt) scan
        ∧ scan.after.Later q.world := by
  obtain ⟨⟨new, scans, rfl, each⟩, _⟩ := resumption
  obtain ⟨scan, scanned, rfl⟩ := List.mem_map.mp member
  obtain ⟨resumed, later⟩ := each scan scanned
  refine ⟨scan, ?_, rfl, resumed, later⟩
  rw [scans, first, List.nil_append]
  exact filter_eq_singleton distinct scanned

theorem llapiFindSince_outcome [LustreFid] (site : Site) {param : FindParam} (env : SinceEnv)
    (plans : Nat → ReadPlan) {cookie : Bytes} (given : param.fpSinceCookie = some cookie)
    {file : Option Bytes} {anchors : Anchors}
    (known : findCookieRead site env.bound file = .ok anchors) {w : World}
    (logged : ∀ mdt, anchors mdt ≠ 0 → ∃ r, r ∈ (w.logs mdt).history)
    : Outcome site env anchors file w (llapiFindSince site param env (.live plans) file w) := by
  unfold llapiFindSince
  split
  · exact ⟨.refl w, by simp, fun _ => rfl, fun _ => ⟨anchors, by simp, .inl rfl⟩⟩
  rename_i mdts starts prepared
  obtain ⟨setup, begun, chosen⟩ := findSincePrepare_ok prepared
  obtain rfl : starts = anchors :=
    Except.ok.inj ((findSinceStarts_ok given begun).symm.trans known)
  obtain ⟨covered, distinct⟩ := findSinceMdts_ok chosen
  have unanchored : param.fpSince = .none := by
    refine (findSinceSetup_ok setup).resolve_left ?_
    simp [given]
  have checked := findCookieCheck_checked site plans cookie env.probeRc distinct logged
  have before := findCookieCheck_later site plans cookie env.probeRc mdts starts w
  simp only [given, Option.isSome_some, Bool.and_true]
  dsimp only at checked
  generalize findCookieCheck site (.live plans) cookie env.probeRc mdts starts w = check
    at checked before ⊢
  split
  · rename_i failed
    exact ⟨before, covered, fun _ => rfl, fun ok => absurd ok (Int.ne_of_lt failed)⟩
  rename_i passed
  have resumes := mdtLoop_resumed site param env plans starts (decide (mdts.length > 1)) given
    unanchored mdts distinct false check.1 { reached := starts, world := check.2 }
    (fun _ => checked passed)
    (fun mdt _ anchored => (logged mdt anchored).imp fun r there =>
      (before mdt).history.subset there)
    fun _ _ => rfl
  have onwards := mdtLoop_later site param env plans starts (decide (mdts.length > 1)) mdts false
    check.1 { reached := starts, world := check.2 }
  dsimp only at resumes onwards
  generalize mdtLoop site param env (.live plans) starts (decide (mdts.length > 1)) mdts false
    check.1 { reached := starts, world := check.2 } = loop at resumes onwards ⊢
  have failing := findSinceRc_of_neg param env loop.2.st loop.1
  generalize findSinceRc param env loop.2.st loop.1 = rc at failing ⊢
  have leaves := findSinceRewrite_leaves site env mdts starts loop.2.reached file rc
  generalize (if rc == 0 then _ else _ : Int × Option Bytes) = left at leaves ⊢
  refine ⟨before.trans onwards, covered, fun failed => ?_, fun ok => ?_⟩
  · cases leaves with
    | kept => rfl
    | rewritten => exact absurd rfl failed
  · -- a loop that failed would have failed the run
    have succeeded : 0 ≤ loop.1 := by
      by_contra negative
      have failed := failing (Int.not_le.mp negative)
      cases leaves with
      | kept error =>
          have error := error (by omega)
          simp only [error, if_true] at ok
          omega
      | rewritten zero => omega
    refine ⟨loop.2.reached, fun mdt => (resumes succeeded).only rfl distinct, ?_⟩
    cases leaves with
    | kept => exact .inl rfl
    | rewritten _ written => exact .inr ⟨_, written, rfl⟩

-----------------------------------------------------------------------------------------
-- One run after the other
-----------------------------------------------------------------------------------------

/-- A run of a sequence: how it is called, and what happens to the logs after it. -/
structure SinceCall where
  param : FindParam
  env : SinceEnv
  meanwhile : List LogEvent := []

/-- The anchors a cookie holds. -/
def anchorsOf (site : Site) (file : Option Bytes) : Anchors :=
  match findCookieRead site 0x10000 file with
  | .ok anchors => anchors
  | .error _ => fun _ => 0

/-- A run, and the anchors before and after it. -/
structure Report where
  run : SinceRun World
  before : Anchors
  after : Anchors

/-- Runs with one cookie, from a file and a world on. -/
def session [LustreFid] (site : Site) (plans : Nat → ReadPlan) (cookie : Bytes)
    : List SinceCall → Option Bytes → World → List Report × Option Bytes × World
  | [], file, w => ([], file, w)
  | call :: rest, file, w =>
      let run :=
        llapiFindSince site { call.param with fpSinceCookie := some cookie } call.env
          (.live plans) file w
      let w := { run.world with logs := happen call.meanwhile run.world.logs }
      let (reports, last, w) := session site plans cookie rest run.file w
      ({ run, before := anchorsOf site file, after := anchorsOf site run.file } :: reports,
        last, w)

/-- The run has read a record of an MDT's log. -/
def SinceRun.hasRead (run : SinceRun World) (mdt : Nat) (r : ChangelogRec) : Bool :=
  run.scans.any fun scan => scan.mdt = mdt && scan.read.contains r

def Report.moved (report : Report) (mdt : Nat) : Bool := report.before mdt != report.after mdt

/-- A cookie that can be read back, with anchors at records that were logged. -/
structure Anchored (site : Site) (file : Option Bytes) (w : World) : Prop where
  readBack
    : ∀ nstarts, (∀ mdt, anchorsOf site file mdt ≠ 0 → mdt < nstarts)
        → findCookieRead site nstarts file = .ok (anchorsOf site file)
  fourDigits : ∀ mdt, anchorsOf site file mdt ≠ 0 → mdt < 0x10000
  logged : ∀ mdt, anchorsOf site file mdt ≠ 0 → ∃ r, r ∈ (w.logs mdt).history

theorem Anchored.later {site : Site} {file : Option Bytes} {before after : World}
    (anchored : Anchored site file before) (later : before.Later after)
    : Anchored site file after :=
  { anchored with
    logged := fun mdt present =>
      (anchored.logged mdt present).imp fun _ there => (later mdt).history.subset there }

theorem findCookieRead_none (site : Site) (nstarts : Nat)
    : findCookieRead site nstarts none = .ok fun _ => 0 := by
  rw [findCookieRead, rootesc_of_site]
  rfl

/-- Without a file there are no anchors. -/
theorem anchorsOf_none (site : Site) : anchorsOf site none = fun _ => 0 := by
  rw [anchorsOf, findCookieRead_none]

theorem anchored_none (site : Site) (w : World) : Anchored site none w := by
  refine ⟨fun nstarts _ => ?_, ?_, ?_⟩
  · rw [anchorsOf_none, findCookieRead_none]
  · simp [anchorsOf_none]
  · simp [anchorsOf_none]

/-- What is written is what the cookie holds from then on. -/
theorem anchorsOf_write {site : Site} {seen : Anchors} {nseen : Nat}
    (small : ∀ mdt, seen mdt ≠ 0 → mdt < 0x10000 ∧ mdt < nseen) {text : Bytes}
    (written : findCookieWrite site seen nseen = .ok text)
    : anchorsOf site (some text) = seen
      ∧ ∀ nstarts, (∀ mdt, seen mdt ≠ 0 → mdt < nstarts)
          → findCookieRead site nstarts (some text) = .ok seen := by
  have readBack (nstarts : Nat) (fits : ∀ mdt, seen mdt ≠ 0 → mdt < nstarts)
      : findCookieRead site nstarts (some text) = .ok seen := by
    have within : ∀ mdt < nseen, seen mdt ≠ 0 → mdt < 0x10000 ∧ mdt < nstarts :=
      fun mdt _ present => ⟨(small mdt present).1, fits mdt present⟩
    obtain ⟨same, rewritten, read⟩ := findCookieRead_write site seen within
    cases written.symm.trans rewritten
    rw [read]
    congr 1
    funext mdt
    split
    · rfl
    · rename_i above
      exact (not_not.mp fun present => above (small mdt present).2).symm
  refine ⟨?_, readBack⟩
  rw [anchorsOf, readBack 0x10000 fun mdt present => (small mdt present).1]

/-- What a report says, in a world that has moved on. -/
structure Settled (last : World) (report : Report) : Prop where
  failed : report.run.rc ≠ 0 → report.after = report.before
  others : ∀ mdt ∉ report.run.mdts, report.after mdt = report.before mdt
  resumed
    : report.run.rc = 0
        → ∀ mdt ∈ report.run.mdts, ∃ scan reached,
            report.run.scans.filter (·.mdt = mdt) = [scan]
            ∧ scan.mdt = mdt
            ∧ Resumed (report.before mdt) reached scan
            ∧ (report.after mdt = report.before mdt ∨ report.after mdt = reached)
            ∧ scan.after.Later last

theorem Settled.later {before after : World} {report : Report} (settled : Settled before report)
    (later : before.Later after)
    : Settled after report := by
  refine { settled with resumed := fun ok mdt member => ?_ }
  obtain ⟨scan, reached, only, same, resumed, moved, since⟩ := settled.resumed ok mdt member
  exact ⟨scan, reached, only, same, resumed, moved, since.trans later⟩

/-- What a run leaves for the next one. -/
structure Handed (site : Site) (env : SinceEnv) (file : Option Bytes) (w : World)
    (run : SinceRun World)
    : Prop where
  later : w.Later run.world
  anchored : Anchored site run.file run.world
  fits : ∀ mdt, anchorsOf site run.file mdt ≠ 0 → mdt < env.bound
  settled
    : Settled run.world
        { run, before := anchorsOf site file, after := anchorsOf site run.file }

section Run

variable {site : Site} {env : SinceEnv} {file : Option Bytes} {w : World} {run : SinceRun World}
  (anchored : Anchored site file w)
  (fits : ∀ mdt, anchorsOf site file mdt ≠ 0 → mdt < env.bound)

include anchored fits

/-- The file is as it was. -/
theorem Outcome.kept (outcome : Outcome site env (anchorsOf site file) file w run)
    (same : run.file = file)
    : Handed site env file w run := by
  refine ⟨outcome.later, ?_, ?_, ?_⟩
  · rw [same]
    exact anchored.later outcome.later
  · rw [same]
    exact fits
  rw [same]
  refine ⟨fun _ => rfl, fun _ _ => rfl, fun ok mdt member => ?_⟩
  obtain ⟨reached, each, _⟩ := outcome.resumed ok
  obtain ⟨scan, only, own, resumed, later⟩ := each mdt member
  exact ⟨scan, reached mdt, only, own, resumed, .inl rfl, later⟩

/-- The covered MDTs' anchors have moved, the others are carried forward. -/
theorem Outcome.rewritten (outcome : Outcome site env (anchorsOf site file) file w run)
    (ok : run.rc = 0) {reached : Anchors}
    (each : ∀ mdt ∈ run.mdts, ∃ scan,
      run.scans.filter (·.mdt = mdt) = [scan]
      ∧ scan.mdt = mdt
      ∧ Resumed (anchorsOf site file mdt) (reached mdt) scan
      ∧ scan.after.Later run.world)
    {text : Bytes}
    (written : findCookieWrite site
        (fun mdt => if mdt ∈ run.mdts then reached mdt else anchorsOf site file mdt) env.bound
      = .ok text)
    (rewritten : run.file = some text)
    : Handed site env file w run := by
  have small (mdt : Nat)
      (present : (if mdt ∈ run.mdts then reached mdt else anchorsOf site file mdt) ≠ 0)
      : mdt < 0x10000 ∧ mdt < env.bound := by
    split at present
    · obtain ⟨below, there⟩ := outcome.covered mdt ‹_›
      exact ⟨env.fourDigits mdt there, below⟩
    · exact ⟨anchored.fourDigits mdt present, fits mdt present⟩
  have inherited (mdt : Nat) (present : anchorsOf site file mdt ≠ 0)
      : ∃ r, r ∈ (run.world.logs mdt).history :=
    (anchored.later outcome.later).logged mdt present
  have logged (mdt : Nat)
      (present : (if mdt ∈ run.mdts then reached mdt else anchorsOf site file mdt) ≠ 0)
      : ∃ r, r ∈ (run.world.logs mdt).history := by
    split at present
    · obtain ⟨scan, _, rfl, resumed, later⟩ := each mdt ‹_›
      rcases resumed.moved with unmoved | ⟨r, read, _⟩
      · exact inherited _ (unmoved ▸ present)
      · exact ⟨r, (later _).history.subset (resumed.logged r read)⟩
    · exact inherited mdt present
  obtain ⟨holds, readBack⟩ := anchorsOf_write small written
  rw [← rewritten] at holds readBack
  refine ⟨outcome.later, ⟨?_, ?_, ?_⟩, ?_, fun failed => absurd ok failed, ?_, ?_⟩
  · rw [holds]
    exact readBack
  · rw [holds]
    exact fun mdt present => (small mdt present).1
  · rw [holds]
    exact logged
  · rw [holds]
    exact fun mdt present => (small mdt present).2
  · exact fun mdt missing => (congrFun holds mdt).trans (if_neg missing)
  · intro _ mdt member
    obtain ⟨scan, only, own, resumed, later⟩ := each mdt member
    exact ⟨scan, reached mdt, only, own, resumed,
      .inr ((congrFun holds mdt).trans (if_pos member)), later⟩

theorem llapiFindSince_handed [LustreFid] (param : FindParam) (plans : Nat → ReadPlan)
    {cookie : Bytes}
    (given : param.fpSinceCookie = some cookie)
    : Handed site env file w (llapiFindSince site param env (.live plans) file w) := by
  have outcome := llapiFindSince_outcome site env plans given (anchored.readBack _ fits)
    anchored.logged
  generalize llapiFindSince site param env (.live plans) file w = run at outcome ⊢
  by_cases ok : run.rc = 0
  · obtain ⟨reached, each, same | ⟨text, written, rewritten⟩⟩ := outcome.resumed ok
    · exact outcome.kept anchored fits same
    · exact outcome.rewritten anchored fits ok each written rewritten
  · exact outcome.kept anchored fits (outcome.failed ok)

end Run

theorem bound_le {first second : SinceEnv} (grows : first.mdtBound ≤ second.mdtBound)
    : first.bound ≤ second.bound := by
  unfold SinceEnv.bound
  split <;> split <;> omega

theorem session_settled [LustreFid] (site : Site) (plans : Nat → ReadPlan) (cookie : Bytes)
    (calls : List SinceCall) (growing : (calls.map (·.env.mdtBound)).Pairwise (· ≤ ·))
    {file : Option Bytes} {w : World} (anchored : Anchored site file w)
    (fits : ∀ call ∈ calls, ∀ mdt, anchorsOf site file mdt ≠ 0 → mdt < call.env.bound)
    : let result := session site plans cookie calls file w
      w.Later result.2.2 ∧ ∀ report ∈ result.1, Settled result.2.2 report := by
  induction calls generalizing file w with
  | nil => exact ⟨.refl w, by simp [session]⟩
  | cons call rest ih =>
      obtain ⟨least, growing⟩ := List.pairwise_cons.mp growing
      have handed := llapiFindSince_handed anchored (fits call List.mem_cons_self)
        { call.param with fpSinceCookie := some cookie } plans rfl
      unfold session
      dsimp only
      generalize llapiFindSince site { call.param with fpSinceCookie := some cookie } call.env
        (.live plans) file w = run at handed ⊢
      have meanwhile
          : run.world.Later
              { run.world with logs := happen call.meanwhile run.world.logs } :=
        fun mdt => (happen_evolves call.meanwhile run.world.logs mdt).toLater
      have bounded (other : SinceCall) (member : other ∈ rest) (mdt : Nat)
          (present : anchorsOf site run.file mdt ≠ 0)
          : mdt < other.env.bound :=
        Nat.lt_of_lt_of_le (handed.fits mdt present)
          (bound_le (least _ (List.mem_map_of_mem member)))
      obtain ⟨onwards, others⟩ := ih growing (handed.anchored.later meanwhile) bounded
      refine ⟨handed.later.trans (meanwhile.trans onwards), fun report member => ?_⟩
      rcases List.mem_cons.mp member with rfl | member
      · exact handed.settled.later (meanwhile.trans onwards)
      · exact others report member

-----------------------------------------------------------------------------------------
-- What is read between two anchors
-----------------------------------------------------------------------------------------

/-- Nothing is purged between the purge test of an MDT and the end of its scan. -/
def Report.Quiet (report : Report) : Prop :=
  ∀ scan ∈ report.run.scans, scan.startrec ≠ 0 → (scan.after.logs scan.mdt).disturbed = false

instance (report : Report) : Decidable report.Quiet :=
  inferInstanceAs (Decidable (∀ scan ∈ report.run.scans, _ → _))

/-- An MDT's scan reads all that was ever logged between the two anchors, and nothing at or
below the first. If there was none before, all that is still there.
-/
def Report.ReadsBetween (report : Report) (last : World) (mdt : Nat) : Prop :=
  ∃ scan, report.run.scans.filter (·.mdt = mdt) = [scan]
    ∧ (∀ r ∈ scan.read, report.before mdt < r.crIndex)
    ∧ ∀ r, report.before mdt < r.crIndex → r.crIndex ≤ report.after mdt
        → r ∈ (if report.before mdt = 0 then (scan.after.logs mdt).current
            else (last.logs mdt).history)
          → r ∈ scan.read

section Report

variable {last : World} {report : Report}

theorem Settled.readsBetween (settled : Settled last report) (quiet : report.Quiet)
    (ok : report.run.rc = 0) {mdt : Nat} (member : mdt ∈ report.run.mdts)
    : report.ReadsBetween last mdt := by
  obtain ⟨scan, reached, only, rfl, resumed, moved, since⟩ := settled.resumed ok mdt member
  refine ⟨scan, only, resumed.above, fun r past upto there => ?_⟩
  rcases moved with unmoved | moved
  · rw [unmoved] at upto
    exact absurd past (UInt64.not_lt.mpr upto)
  rw [moved] at upto
  refine resumed.still r ?_ past upto
  split at there
  · exact there
  rename_i present
  have scanned : scan ∈ report.run.scans :=
    List.mem_of_mem_filter (only ▸ List.mem_singleton_self scan)
  have undisturbed := quiet scan scanned fun zero => present (resumed.startrec zero)
  -- the record was there when the last one was read
  have earlier : r ∈ (scan.after.logs scan.mdt).history := by
    rcases resumed.moved with unmoved | ⟨x, read, same⟩
    · rw [unmoved] at upto
      exact absurd past (UInt64.not_lt.mpr upto)
    · refine (since _).mem_history there (resumed.logged x read) ?_
      exact UInt64.le_iff_toNat_le.mp (same ▸ upto)
  exact resumed.intact present undisturbed r earlier (UInt64.lt_iff_toNat_lt.mp past)

theorem hasRead_iff {run : SinceRun World} {mdt : Nat} {scan : MdtScan World}
    (only : run.scans.filter (·.mdt = mdt) = [scan]) (r : ChangelogRec)
    : run.hasRead mdt r = true ↔ r ∈ scan.read := by
  have reads : run.hasRead mdt r = (run.scans.filter (·.mdt = mdt)).any (·.read.contains r) := by
    rw [List.any_filter]
    rfl
  rw [reads, only]
  simp

/-- A run, as a step of the cursor that an MDT's anchor is. -/
def Report.step (report : Report) (mdt : Nat) : CursorStep ChangelogRec where
  before := (report.before mdt).toNat
  after := (report.after mdt).toNat
  reads := report.run.hasRead mdt

theorem Report.step_moved (report : Report) (mdt : Nat)
    : (report.step mdt).moved = report.moved mdt := by
  rw [Bool.eq_iff_iff]
  simp [CursorStep.moved, Report.moved, Report.step, UInt64.toNat_inj]

theorem Settled.step (settled : Settled last report) (quiet : report.Quiet) (mdt : Nat)
    : (report.step mdt).Sound recordIndex (· ∈ (last.logs mdt).history) := by
  by_cases unmoved : report.after mdt = report.before mdt
  · have stays : (report.step mdt).after = (report.step mdt).before :=
      congrArg UInt64.toNat unmoved
    refine ⟨Nat.le_of_eq stays.symm, fun _ r _ past upto => ?_, fun moved => ?_⟩
    · omega
    · simp [CursorStep.moved, stays] at moved
  have ok : report.run.rc = 0 :=
    not_not.mp fun failed => unmoved (congrFun (settled.failed failed) mdt)
  have member : mdt ∈ report.run.mdts := not_not.mp fun missing =>
    unmoved (settled.others mdt missing)
  obtain ⟨scan, only, _, between⟩ := settled.readsBetween quiet ok member
  obtain ⟨same, reached, again, _, resumed, moved, _⟩ := settled.resumed ok mdt member
  obtain rfl : scan = same := List.singleton_injective (only.symm.trans again)
  have moved := moved.resolve_left unmoved
  refine ⟨?_, fun present r known past upto => ?_, fun _ r reads => ?_⟩
  · exact UInt64.le_iff_toNat_le.mp (moved ▸ resumed.forward)
  · refine (hasRead_iff only r).mpr (between r (UInt64.lt_iff_toNat_lt.mpr past)
      (UInt64.le_iff_toNat_le.mpr upto) ?_)
    rw [if_neg fun zero => present (by simp [Report.step, zero])]
    exact known
  · have read := (hasRead_iff only r).mp reads
    exact ⟨UInt64.lt_iff_toNat_lt.mp (resumed.above r read),
      UInt64.le_iff_toNat_le.mp (moved ▸ resumed.upto r read)⟩

end Report

theorem session_chained [LustreFid] (site : Site) (plans : Nat → ReadPlan) (cookie : Bytes)
    (calls : List SinceCall) (file : Option Bytes) (w : World) (mdt : Nat)
    : let result := session site plans cookie calls file w
      Chained (anchorsOf site file mdt).toNat (result.1.map (·.step mdt))
        (anchorsOf site result.2.1 mdt).toNat := by
  induction calls generalizing file w with
  | nil => rfl
  | cons call rest ih => exact ⟨rfl, ih _ _⟩

/-- The first anchor is the first place of the cursor. -/
theorem steps_started {reports : List Report} {mdt : Nat} {first : UInt64}
    (started : (reports.map (·.after mdt)).find? (· != 0) = some first)
    : ((reports.map (·.step mdt)).map (·.after)).find? (· != 0) = some first.toNat := by
  have places : (reports.map (·.step mdt)).map (·.after)
      = (reports.map (·.after mdt)).map UInt64.toNat := by
    rw [List.map_map, List.map_map]
    rfl
  have nonzero : (· != 0) ∘ UInt64.toNat = (· != 0) := by
    funext anchor
    simp [bne, ← UInt64.toNat_inj]
  rw [places, List.find?_map, nonzero, started]
  rfl

/-- The runs with one cookie, from the first on. Each that succeeds has read what lies between
its anchors, each that fails leaves them, and no run touches those of other MDTs. So every
record past the first anchor of an MDT is read by one of the runs that moved it.
-/
theorem since_cookie_never_skips [LustreFid] (site : Site) (plans : Nat → ReadPlan) (cookie : Bytes)
    (calls : List SinceCall) (w : World)
    (growing : (calls.map (·.env.mdtBound)).Pairwise (· ≤ ·))
    (quiet : ∀ report ∈ (session site plans cookie calls none w).1, report.Quiet)
    : let (reports, file, last) := session site plans cookie calls none w
      (∀ report ∈ reports,
        (report.run.rc = 0 → ∀ mdt ∈ report.run.mdts, report.ReadsBetween last mdt)
        ∧ (report.run.rc ≠ 0 → report.after = report.before)
        ∧ ∀ mdt ∉ report.run.mdts, report.after mdt = report.before mdt)
      ∧ ∀ mdt first,
          (reports.map (·.after mdt)).find? (· != 0) = some first
            → ∀ r ∈ (last.logs mdt).history,
                first < r.crIndex → r.crIndex ≤ anchorsOf site file mdt
                  → (reports.filter fun report =>
                      report.moved mdt && report.run.hasRead mdt r).length = 1 := by
  have anchored := anchored_none site w
  have nowhere (mdt : Nat) : anchorsOf site none mdt = 0 := congrFun (anchorsOf_none site) mdt
  obtain ⟨_, settled⟩ := session_settled site plans cookie calls growing anchored
    fun _ _ mdt present => absurd (nowhere mdt) present
  have chained := session_chained site plans cookie calls none w
  dsimp only at settled chained ⊢
  generalize session site plans cookie calls none w = result at quiet settled chained ⊢
  obtain ⟨reports, file, last⟩ := result
  refine ⟨fun report member => ?_, fun mdt first started r logged ahead reached => ?_⟩
  · have here := settled report member
    exact ⟨fun ok mdt => here.readsBetween (quiet report member) ok, here.failed, here.others⟩
  · have sound : ∀ step ∈ reports.map (·.step mdt),
        step.Sound recordIndex (· ∈ (last.logs mdt).history) := by
      intro step member
      obtain ⟨report, reported, rfl⟩ := List.mem_map.mp member
      exact (settled report reported).step (quiet report reported) mdt
    have chained := chained mdt
    rw [nowhere] at chained
    have once := readers_between sound chained (steps_started started) logged
      (UInt64.lt_iff_toNat_lt.mp ahead) (UInt64.le_iff_toNat_le.mp reached)
    rw [readers, List.filter_map, List.length_map] at once
    rw [← once]
    congr 2
    funext report
    exact congrArg (· && _) (report.step_moved mdt).symm

/-- Four runs: all MDTs; one of them, after a purge; one whose output fails; all again. The
record that the third run lost is read by the fourth.
-/
theorem since_cookie_never_skips_purged
    : letI := plainFid
      let env : SinceEnv :=
        {
          mdtBound := 2
          present := fun mdt => decide (mdt < 2)
          fourDigits := fun mdt there => Nat.lt_trans (of_decide_eq_true there) (by decide)
        }
      let event (index : UInt64) (oid : UInt32) : ChangelogRec :=
        { crIndex := index, crTfid := { fSeq := 0x400, fOid := oid } }
      let plans (readings : Nat) : ReadPlan :=
        if readings = 0 then
          { before := [.append 0 (event 1 1), .append 0 (event 2 2), .append 1 (event 5 3)] }
        else
          {}
      let calls : List SinceCall :=
        [
          { param := {}, env, meanwhile := [.append 0 (event 3 1), .purge 0 1] },
          {
            param := { fpChangelogMdt := some (cstr "lustre-MDT0000") }
            env
            meanwhile := [.append 0 (event 4 2)]
          },
          { param := {}, env := { env with stdoutFails := true } },
          { param := {}, env }
        ]
      let empty : Journal recordIndex :=
        { history := [], increasing := .nil, positive := by simp, kept := .inl rfl }
      let (reports, _, _) :=
        session lustreSite plans (cstr "cookie") calls none { logs := fun _ => empty }
      reports.map (·.run.rc) = [0, 0, -eio, 0]
        ∧ reports.map (fun report => (report.after 0, report.after 1))
          = [(2, 5), (3, 5), (3, 5), (4, 5)]
        ∧ (reports.filter fun report => report.moved 0 && report.run.hasRead 0 (event 4 2)).length
          = 1 := by
  intro env event plans calls empty
  have skips := @since_cookie_never_skips plainFid lustreSite plans (cstr "cookie") calls
    { logs := fun _ => empty } (by decide +kernel) (by decide +kernel)
  exact ⟨by decide +kernel, by decide +kernel,
    skips.2 0 2 (by decide +kernel) (event 4 2) (by decide +kernel) (by decide) (by decide +kernel)⟩

end LfuScan.Find
