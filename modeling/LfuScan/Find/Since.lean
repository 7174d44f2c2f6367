import LfuScan.Changelog.Coalesce
import LfuScan.Find.CookieFile
import LfuScan.Foundations.SearchTree

/-! `lfs find` over what a changelog says changed (`llapi_find_since`): the candidates of each
MDT in turn, each looked up once, and the anchors a `--since-cookie` run resumes from.
-/

namespace LfuScan.Find

open LfuScan.Foundations LfuScan.Lustre LfuScan.Lustre.LustreFid LfuScan.Changelog

variable [LustreFid]

/-- `fp_since_kind` with the anchor that goes with it. -/
inductive Since
  | none
  | time (fpSinceTime : Int)
  | index (fpSinceIndex : UInt64)
deriving DecidableEq, Repr

def Since.isIndex : Since → Bool
  | .index _ => true
  | _ => false

/-- The parts of `struct find_param` that select the candidates. `needsLookup` stands for the
predicates only a lookup can answer (`find_changelog_needs_lookup`).
-/
structure FindParam where
  fpSince : Since := .none
  fpSinceCookie : Option Bytes := Option.none
  fpChangelogMdt : Option Bytes := Option.none
  fpResolve : Bool := false
  fpStopOnError : Bool := false
  fpThreadCount : Nat := 0
  needsLookup : Bool := false
deriving DecidableEq, Repr

/-- `fss_as_recorded`: the record is the answer, not a candidate. -/
def FindParam.asRecorded (param : FindParam) : Bool := param.fpChangelogMdt.isSome

/-- `fss_since`; 0 is no window. -/
def FindParam.since (param : FindParam) : Int :=
  match param.fpSince with
  | .time fpSinceTime => fpSinceTime
  | _ => 0

/-- How judging an object ends, through a lookup or as it was recorded: a lookup that fails
early has not called back.
-/
structure ObjectAnswer where
  rc : Int := 0
  cbCalled : Bool := true
  undecided : Bool := false
  pathRc : Int := 0
  error : rc ≤ 0 := by decide

/-- What a run finds outside: what the calls it makes return, which MDTs there are, and which
allocations succeed. A target's number has four hex digits.
-/
structure SinceEnv where
  pathRc : Int := 0
  supportedRc : Int := 0
  mountRc : Int := 0
  rootIsMnt : Bool := true
  countRc : Int := 0
  mdtBound : Int := 1
  arrays : Bool := true
  cookieOpenRc : Int := 0
  cookieReadRc : Int := 0
  present : Nat → Bool := (· == 0)
  rootOpenRc : Int := 0
  paramRc : Int := 0
  probeRc : Int := 0
  memory : Memory := fun _ => true
  lookup : Nat → ObjectAnswer := fun _ => {}
  recorded : Nat → ObjectAnswer := fun _ => {}
  stdoutFails : Bool := false
  writeRc : Int := 0
  fourDigits : ∀ mdt, present mdt = true → mdt < 0x10000 := by decide

/-- The order of the FIDs in `fss_seen`. -/
def findFidCmp (x y : LuFid) : Int :=
  if x.fSeq != y.fSeq then
    if x.fSeq < y.fSeq then -1 else 1
  else if x.fOid != y.fOid then
    if x.fOid < y.fOid then -1 else 1
  else if x.fVer != y.fVer then
    if x.fVer < y.fVer then -1 else 1
  else
    0

omit [LustreFid] in
theorem findFidCmp_neg (x y : LuFid)
    : findFidCmp x y < 0
      ↔ x.fSeq < y.fSeq
        ∨ x.fSeq = y.fSeq
          ∧ (x.fOid < y.fOid ∨ x.fOid = y.fOid ∧ x.fVer < y.fVer) := by
  unfold findFidCmp
  grind

omit [LustreFid] in
theorem findFidCmp_comparison : Comparison findFidCmp where
  zero_iff x y := by
    unfold findFidCmp
    grind [LuFid]
  swap x y := by
    rw [findFidCmp_neg]
    unfold findFidCmp
    grind
  trans x y z := by
    simp only [findFidCmp_neg]
    grind

/-- The fields of `struct find_since_state` that change. `allocs` and `recorded` count the
calls made, `lookedUp` is what `llapi_scan_fid` was called with.
-/
structure FindSinceState where
  fssReached : UInt64 := 0
  fssSeen : SearchSet findFidCmp := {}
  fssCand : UInt64 := 0
  fssGone : UInt64 := 0
  fssUndecided : UInt64 := 0
  fssDropped : UInt64 := 0
  fssScanRc : Int := 0
  fssPathRc : Int := 0
  allocs : Nat := 0
  recorded : Nat := 0
  lookedUp : List LuFid := []
deriving DecidableEq, Repr

/-- What judging an object leaves behind. -/
def FindSinceState.judged (st : FindSinceState) (answer : ObjectAnswer) : FindSinceState :=
  {
    st with
    fssUndecided := if answer.undecided then st.fssUndecided + 1 else st.fssUndecided
    fssPathRc := if st.fssPathRc == 0 then answer.pathRc else st.fssPathRc
  }

-----------------------------------------------------------------------------------------
-- The callbacks
-----------------------------------------------------------------------------------------

/-- Where the run has got to, and whether the record is inside the window. -/
def findSinceFilterCb (param : FindParam) (rec : LlapiScanRec) (st : FindSinceState)
    : Int × FindSinceState :=
  let st :=
    if rec.lfsrValid.event && rec.lfsrEventIndex > st.fssReached then
      { st with fssReached := rec.lfsrEventIndex }
    else
      st
  if param.since != 0 && rec.lfsrValid.event && rec.lfsrEventTime < param.since then (1, st)
  else (0, st)

/-- 1 if another MDT's log already gave the FID, 0 if it is now recorded. -/
def findSinceSeen (memory : Memory) (st : FindSinceState) (fid : LuFid) : Int × FindSinceState :=
  if !memory st.allocs then
    (-enomem, { st with allocs := st.allocs + 1 })
  else if st.fssSeen.has fid then
    -- the node `tsearch` returns has the key of an earlier call
    (1, { st with allocs := st.allocs + 1 })
  else if !memory (st.allocs + 1) then
    (-enomem, { st with allocs := st.allocs + 2 })
  else
    (0, { st with fssSeen := st.fssSeen.add findFidCmp_comparison fid, allocs := st.allocs + 2 })

/-- The record itself is judged. -/
def findChangelogRecCb (env : SinceEnv) (st : FindSinceState) : Int × FindSinceState :=
  let answer := env.recorded st.recorded
  (answer.rc, { st.judged answer with recorded := st.recorded + 1 })

/-- The second half of `find_since_cand_cb`: a candidate that is new to this run. -/
def findSinceCandidate (param : FindParam) (env : SinceEnv) (fid : LuFid) (st : FindSinceState)
    : Int × FindSinceState :=
  let st := { st with fssCand := st.fssCand + 1 }
  if param.asRecorded && !param.fpResolve then
    findChangelogRecCb env st
  else
    let answer := env.lookup st.lookedUp.length
    let st := { st with lookedUp := st.lookedUp ++ [fid] }
    let st := if answer.cbCalled then st.judged answer else st
    if (answer.rc == -enoent || answer.rc == -estale) && !answer.cbCalled then
      let st := { st with fssGone := st.fssGone + 1 }
      if !param.asRecorded then
        (0, st)
      else if param.needsLookup || !env.rootIsMnt then
        (0, { st with fssUndecided := st.fssUndecided + 1 })
      else
        findChangelogRecCb env st
    else if answer.rc < 0 && !param.fpStopOnError then
      (
        0,
        {
          st with
          fssScanRc := if st.fssScanRc == 0 then answer.rc else st.fssScanRc
          fssDropped := st.fssDropped + 1
        })
    else
      (answer.rc, st)

/-- One coalesced object out of an MDT's changelog. -/
def findSinceCandCb (param : FindParam) (env : SinceEnv) (fssMultiMdt : Bool)
    (rec : LlapiScanRec) (st : FindSinceState)
    : Int × FindSinceState :=
  if rec.lfsrValid.event && rec.lfsrEventType == .mark then
    (0, st)
  else if !rec.lfsrValid.fid then
    (0, st)
  else if fssMultiMdt && !param.asRecorded then
    let (rc, st) := findSinceSeen env.memory st rec.lfsrFid
    if rc != 0 then (if rc < 0 then rc else 0, st)
    else findSinceCandidate param env rec.lfsrFid st
  else
    findSinceCandidate param env rec.lfsrFid st

def sinceConsumer (param : FindParam) (env : SinceEnv) (fssMultiMdt : Bool)
    : Consumer FindSinceState where
  scFilter := some (findSinceFilterCb param)
  cb := findSinceCandCb param env fssMultiMdt

/-- What reading a changelog gives: records, and then the end of the log or an error. -/
structure Reading where
  log : List ChangelogRec
  readEnd : Int := 1
  env : ScanEnv := {}
  ended : readEnd = 1 ∨ readEnd < 0 := by decide

/-- The changelogs of a filesystem, by MDT and first index. What a reading gives may depend on
everything that happened before, and `first` is a reading that is given up after one record.
-/
structure LogSource (W : Type) where
  first : Nat → UInt64 → W → Reading × W
  recv : Nat → UInt64 → W → Reading × W

variable {W : Type}

def findClFirstCb (rec : LlapiScanRec) (idx : UInt64) : Int × UInt64 :=
  if !rec.lfsrValid.event then (-eproto, idx) else (1, rec.lfsrEventIndex)

def clFirstConsumer : Consumer UInt64 := { scFilter := none, cb := findClFirstCb }

/-- The first index an MDT holds from `startrec` on; 0 is none. -/
def findClFirst (site : Site) (logs : LogSource W) (mdt : Nat) (startrec : UInt64) (w : W)
    : Int × UInt64 × W :=
  let (reading, w) := logs.first mdt startrec w
  let sc : ScanParams := { mdtname := some (mdtname site.fsname mdt) }
  let (rc, s) := llapiScanChangelog sc reading.env clFirstConsumer reading.log reading.readEnd 0
  (if rc < 0 then rc else 0, s.slData, w)

/-- The loop of `find_cookie_check`: no anchor may be behind what is left of its log, or past
its end.
-/
def cookieCheckLoop (site : Site) (logs : LogSource W) (starts : Anchors)
    : List Nat → W → Int × W
  | [], w => (0, w)
  | mdt :: rest, w =>
      let anchor := starts mdt
      if anchor == 0 then
        cookieCheckLoop site logs starts rest w
      else
        let (rc, oldest, w) := findClFirst site logs mdt 0 w
        if rc < 0 then
          (rc, w)
        else if oldest > anchor + 1 then
          (-estale, w)
        else if oldest == 0 then
          cookieCheckLoop site logs starts rest w
        else
          let (rc, start, w) := findClFirst site logs mdt anchor w
          if rc < 0 then (rc, w)
          else if start == 0 then (-estale, w)
          else cookieCheckLoop site logs starts rest w

def findCookieCheck (site : Site) (logs : LogSource W) (cookie : Bytes) (probeRc : Int)
    (mdts : List Nat) (starts : Anchors) (w : W)
    : Int × W :=
  if cookie.isEmpty then (-einval, w)
  else if probeRc < 0 then (probeRc, w)
  else cookieCheckLoop site logs starts mdts w

/-- One MDT's scan, as seen from outside. -/
structure MdtScan (W : Type) where
  mdt : Nat
  startrec : UInt64
  read : List ChangelogRec
  after : W

/-- Where the loop over the MDTs is. -/
structure Progress (W : Type) where
  st : FindSinceState := {}
  reached : Anchors
  scans : List (MdtScan W) := []
  world : W

def FindParam.startrec (param : FindParam) (start : UInt64) : UInt64 :=
  match param.fpSince with
  | .index fpSinceIndex => fpSinceIndex
  | _ => if param.fpSinceCookie.isSome && start != 0 then start + 1 else 0

def sinceScanParams (site : Site) (param : FindParam) (mdt : Nat) : ScanParams :=
  {
    mdtname := some (mdtname site.fsname mdt)
    coalesce := true
    once := !param.asRecorded
  }

section Loop

variable (site : Site) (param : FindParam) (env : SinceEnv) (logs : LogSource W)
  (starts : Anchors) (fssMultiMdt : Bool)

/-- The check that is made again before an MDT other than the first is read. -/
def recheck (later : Bool) (mdt : Nat) (w : W) : Int × W :=
  if later && param.fpSinceCookie.isSome && starts mdt != 0 then
    let (rc, oldest, w) := findClFirst site logs mdt 0 w
    if rc < 0 then (rc, w) else if oldest > starts mdt + 1 then (-estale, w) else (0, w)
  else
    (0, w)

def scanMdt (mdt : Nat) (p : Progress W) : Int × Progress W :=
  let startrec := param.startrec (starts mdt)
  let (reading, w) := logs.recv mdt startrec p.world
  let (rc, s) :=
    llapiScanChangelog (sinceScanParams site param mdt) reading.env
      (sinceConsumer param env fssMultiMdt) reading.log reading.readEnd
      { p.st with fssReached := p.reached mdt }
  (
    rc,
    {
      st := s.slData
      reached := Function.update p.reached mdt s.slData.fssReached
      scans := p.scans ++ [{ mdt, startrec, read := recordsRead s.trace, after := w }]
      world := w
    })

/-- The loop over the MDTs, which an error ends; `rc` is the last one's. -/
def mdtLoop : List Nat → Bool → Int → Progress W → Int × Progress W
  | [], _, rc, p => (rc, p)
  | mdt :: rest, later, _, p =>
      let (rc, w) := recheck site param logs starts later mdt p.world
      if rc < 0 then
        (rc, { p with world := w })
      else
        let (rc, p) := scanMdt site param env logs starts fssMultiMdt mdt { p with world := w }
        if rc < 0 then (rc, p) else mdtLoop rest true rc p

end Loop

-----------------------------------------------------------------------------------------
-- A run
-----------------------------------------------------------------------------------------

/-- What is refused or fails before the cookie is read, or 0. -/
def findSinceSetup (param : FindParam) (env : SinceEnv) : Int :=
  if param.fpSince == .none && param.fpChangelogMdt.isNone && param.fpSinceCookie.isNone then
    -einval
  else if param.fpThreadCount > 1 then
    -enotsup
  else if param.fpSinceCookie.isSome && param.fpSince != .none then
    -einval
  else if param.fpResolve && param.fpChangelogMdt.isNone then
    -einval
  else if env.pathRc < 0 then
    env.pathRc
  else if param.asRecorded && env.supportedRc < 0 then
    env.supportedRc
  else if env.mountRc < 0 then
    env.mountRc
  else if param.asRecorded && !param.fpResolve && !env.rootIsMnt then
    -einval
  else if env.countRc < 0 then
    env.countRc
  else if !env.arrays then
    -enomem
  else
    0

/-- `mdt_bound`, as many MDTs as there may be. -/
def SinceEnv.bound (env : SinceEnv) : Nat := if env.mdtBound ≤ 0 then 1 else env.mdtBound.toNat

/-- The anchors a run starts from. -/
def findSinceStarts (site : Site) (param : FindParam) (env : SinceEnv) (file : Option Bytes)
    : Except Int Anchors :=
  if param.fpSinceCookie.isNone then
    .ok fun _ => 0
  else if env.cookieOpenRc < 0 then
    .error env.cookieOpenRc
  else if file.isSome && env.cookieReadRc < 0 then
    .error env.cookieReadRc
  else
    findCookieRead site env.bound file

/-- The MDTs a run covers. -/
def findSinceMdts (site : Site) (param : FindParam) (env : SinceEnv) : Except Int (List Nat) :=
  let mdts := (List.range env.bound).filter env.present
  match param.fpChangelogMdt with
  | none => if mdts.isEmpty then .error (-enodev) else .ok mdts
  | some fpChangelogMdt =>
      if fpChangelogMdt == cstr "all" then
        if mdts.isEmpty then .error (-enodev) else .ok mdts
      else
        match mdts.find? (mdtname site.fsname · == fpChangelogMdt) with
        | none => .error (-enodev)
        | some only => .ok [only]

/-- Everything that precedes the first reading. -/
def findSincePrepare (site : Site) (param : FindParam) (env : SinceEnv) (file : Option Bytes)
    : Except Int (List Nat × Anchors) :=
  let rc := findSinceSetup param env
  if rc < 0 then
    .error rc
  else
    match findSinceStarts site param env file with
    | .error rc => .error rc
    | .ok starts =>
        match findSinceMdts site param env with
        | .error rc => .error rc
        | .ok mdts =>
            -- an index is one MDT's counter
            if param.fpSince.isIndex && mdts.length > 1 then .error (-einval)
            else if env.rootOpenRc < 0 then .error env.rootOpenRc
            else if env.paramRc < 0 then .error env.paramRc
            else .ok (mdts, starts)

/-- What keeps the anchors where they were, or 0. -/
def findSinceRc (param : FindParam) (env : SinceEnv) (st : FindSinceState) (rc : Int) : Int :=
  let rc := if rc == 0 && st.fssPathRc != 0 then st.fssPathRc else rc
  let rc := if rc == 0 && st.fssScanRc != 0 then st.fssScanRc else rc
  if rc == 0 && param.fpSinceCookie.isSome && env.stdoutFails then -eio else rc

/-- The cookie is rewritten: what is covered has moved on, the rest is carried forward. The
new file replaces the old one, or is thrown away.
-/
def findSinceRewrite (site : Site) (env : SinceEnv) (mdts : List Nat) (starts reached : Anchors)
    (file : Option Bytes)
    : Int × Option Bytes :=
  let seen : Anchors := fun mdt => if mdt ∈ mdts then reached mdt else starts mdt
  match findCookieWrite site seen env.bound with
  | .error rc => (rc, file)
  | .ok text => if env.writeRc < 0 then (env.writeRc, file) else (0, some text)

/-- A run: what it returns and leaves in the cookie, the MDTs it covers and their scans;
`scansRc` is how the loop over the MDTs ended, if the run got that far.
-/
structure SinceRun (W : Type) where
  rc : Int
  mdts : List Nat := []
  scansRc : Option Int := none
  st : FindSinceState := {}
  scans : List (MdtScan W) := []
  file : Option Bytes
  world : W

def llapiFindSince (site : Site) (param : FindParam) (env : SinceEnv) (logs : LogSource W)
    (file : Option Bytes) (w : W)
    : SinceRun W :=
  match findSincePrepare site param env file with
  | .error rc => { rc, file, world := w }
  | .ok (mdts, starts) =>
      let (rc, w) :=
        match param.fpSinceCookie with
        | none => (0, w)
        | some cookie => findCookieCheck site logs cookie env.probeRc mdts starts w
      if rc < 0 then
        { rc, mdts, file, world := w }
      else
        let fssMultiMdt := decide (mdts.length > 1)
        let (scansRc, p) :=
          mdtLoop site param env logs starts fssMultiMdt mdts false rc
            { reached := starts, world := w }
        let rc := findSinceRc param env p.st scansRc
        let (rc, file) :=
          if rc == 0 && param.fpSinceCookie.isSome then
            findSinceRewrite site env mdts starts p.reached file
          else
            (rc, file)
        {
          -- a positive is not a failure
          rc := if rc < 0 then rc else 0
          mdts
          scansRc := some scansRc
          st := p.st
          scans := p.scans
          file
          world := p.world
        }

-----------------------------------------------------------------------------------------
-- What the callbacks do
-----------------------------------------------------------------------------------------

/-- The record is not behind the window. -/
def FindParam.inWindow (param : FindParam) (time : Int) : Bool :=
  param.since == 0 || param.since ≤ time

omit [LustreFid] in
theorem findSinceFilterCb_effect (param : FindParam) {rec : LlapiScanRec}
    (event : rec.lfsrValid.event = true) (st : FindSinceState)
    : ∃ reached,
        findSinceFilterCb param rec st
          = (if param.inWindow rec.lfsrEventTime then 0 else 1,
              { st with fssReached := reached })
        ∧ st.fssReached ≤ reached
        ∧ rec.lfsrEventIndex ≤ reached
        ∧ (reached = st.fssReached ∨ reached = rec.lfsrEventIndex) := by
  have window : (param.since != 0 && decide (rec.lfsrEventTime < param.since))
      = !param.inWindow rec.lfsrEventTime := by
    rw [FindParam.inWindow, Bool.not_or, ← decide_not]
    exact congrArg _ (decide_eq_decide.mpr Int.not_le.symm)
  unfold findSinceFilterCb
  simp only [event, Bool.true_and, Bool.and_true, window, gt_iff_lt, decide_eq_true_eq]
  by_cases further : st.fssReached < rec.lfsrEventIndex
  · refine ⟨rec.lfsrEventIndex, ?_, UInt64.le_of_lt further, UInt64.le_refl _, .inr rfl⟩
    rw [if_pos further]
    cases param.inWindow rec.lfsrEventTime <;> rfl
  · refine ⟨st.fssReached, ?_, UInt64.le_refl _, UInt64.not_lt.mp further, .inl rfl⟩
    rw [if_neg further]
    cases param.inWindow rec.lfsrEventTime <;> rfl

/-- What becomes of a candidate: `lookedUp` says it was looked up, unless the record is the
answer.
-/
structure Candidate (param : FindParam) (fid : LuFid) (st : FindSinceState)
    (result : Int × FindSinceState)
    : Prop where
  rc : result.1 ≤ 0
  fssReached : result.2.fssReached = st.fssReached
  fssSeen : result.2.fssSeen = st.fssSeen
  lookedUp : param.asRecorded = false → result.2.lookedUp = st.lookedUp ++ [fid]

omit [LustreFid] in
theorem findSinceCandidate_effect (param : FindParam) (env : SinceEnv) (fid : LuFid)
    (st : FindSinceState)
    : Candidate param fid st (findSinceCandidate param env fid st) := by
  have judged (answer : ObjectAnswer) (before : FindSinceState)
      : let after := if answer.cbCalled then before.judged answer else before
        after.fssReached = before.fssReached ∧ after.fssSeen = before.fssSeen
          ∧ after.lookedUp = before.lookedUp := by
    dsimp only
    split <;> exact ⟨rfl, rfl, rfl⟩
  unfold findSinceCandidate
  dsimp only
  split
  · rename_i recorded
    refine ⟨(env.recorded _).error, rfl, rfl, fun live => ?_⟩
    simp [live] at recorded
  have after := judged (env.lookup st.lookedUp.length)
    { st with fssCand := st.fssCand + 1, lookedUp := st.lookedUp ++ [fid] }
  dsimp only at after
  generalize env.lookup st.lookedUp.length = answer at after ⊢
  generalize (if answer.cbCalled then _ else _ : FindSinceState) = mid at after ⊢
  obtain ⟨reached, seen, lookedUp⟩ := after
  split
  · split
    · exact ⟨Int.le_refl 0, reached, seen, fun _ => lookedUp⟩
    split
    · exact ⟨Int.le_refl 0, reached, seen, fun _ => lookedUp⟩
    · rename_i recorded _
      exact ⟨(env.recorded _).error, reached, seen, fun _ => lookedUp⟩
  split
  · exact ⟨Int.le_refl 0, reached, seen, fun _ => lookedUp⟩
  · exact ⟨answer.error, reached, seen, fun _ => lookedUp⟩

/-- The ways the callback can end. -/
inductive CandCbExit (param : FindParam) (env : SinceEnv) (fssMultiMdt : Bool)
    (rec : LlapiScanRec) (st : FindSinceState)
    : Int × FindSinceState → Prop
  | passed (nameless : rec.lfsrEventType = .mark ∨ rec.lfsrValid.fid = false)
    : CandCbExit param env fssMultiMdt rec st (0, st)
  | noMemory {n allocs : Nat} (full : env.memory n = false)
    : CandCbExit param env fssMultiMdt rec st (-enomem, { st with allocs })
  | known {allocs : Nat} (across : fssMultiMdt = true) (seen : st.fssSeen.has rec.lfsrFid = true)
    : CandCbExit param env fssMultiMdt rec st (0, { st with allocs })
  | fresh {allocs : Nat} (named : rec.lfsrValid.fid = true) (across : fssMultiMdt = true)
    (live : param.asRecorded = false) (unseen : st.fssSeen.has rec.lfsrFid = false)
    : CandCbExit param env fssMultiMdt rec st
        (findSinceCandidate param env rec.lfsrFid
          { st with fssSeen := st.fssSeen.add findFidCmp_comparison rec.lfsrFid, allocs })
  | alone (named : rec.lfsrValid.fid = true)
    (unchecked : fssMultiMdt = false ∨ param.asRecorded = true)
    : CandCbExit param env fssMultiMdt rec st (findSinceCandidate param env rec.lfsrFid st)

omit [LustreFid] in
theorem findSinceCandCb_exit (param : FindParam) (env : SinceEnv) (fssMultiMdt : Bool)
    (rec : LlapiScanRec) (st : FindSinceState)
    : CandCbExit param env fssMultiMdt rec st
        (findSinceCandCb param env fssMultiMdt rec st) := by
  unfold findSinceCandCb
  split
  · rename_i mark
    rw [Bool.and_eq_true, beq_iff_eq] at mark
    exact .passed (.inl mark.2)
  split
  · rename_i unnamed
    exact .passed (.inr (by simpa using unnamed))
  rename_i named
  rw [Bool.not_eq_true', Bool.not_eq_false] at named
  split
  · rename_i across
    rw [Bool.and_eq_true, Bool.not_eq_true'] at across
    unfold findSinceSeen
    by_cases first : env.memory st.allocs <;> simp only [first, Bool.not_true, Bool.not_false,
      Bool.false_eq_true, if_false, if_true]
    · cases seen : st.fssSeen.has rec.lfsrFid with
      | true => exact .known across.1 seen
      | false =>
        by_cases second : env.memory (st.allocs + 1) <;> simp only [second, Bool.not_true,
          Bool.not_false, Bool.false_eq_true, if_false, if_true]
        · exact .fresh named across.1 across.2 seen
        · exact .noMemory (Bool.eq_false_iff.mpr second)
    · exact .noMemory (Bool.eq_false_iff.mpr first)
  · rename_i unchecked
    refine .alone named ?_
    cases fssMultiMdt <;> simp_all

omit [LustreFid] in
/-- The callback stops a scan with an error only, and never moves the anchor. -/
theorem findSinceCandCb_effect (param : FindParam) (env : SinceEnv) (fssMultiMdt : Bool)
    (rec : LlapiScanRec) (st : FindSinceState)
    : let result := findSinceCandCb param env fssMultiMdt rec st
      result.1 ≤ 0 ∧ result.2.fssReached = st.fssReached := by
  have ends := findSinceCandCb_exit param env fssMultiMdt rec st
  dsimp only
  generalize findSinceCandCb param env fssMultiMdt rec st = result at ends ⊢
  cases ends with
  | passed => exact ⟨Int.le_refl 0, rfl⟩
  | noMemory => exact ⟨show -enomem ≤ 0 by decide, rfl⟩
  | known => exact ⟨Int.le_refl 0, rfl⟩
  | fresh =>
      have candidate := findSinceCandidate_effect param env rec.lfsrFid
      exact ⟨(candidate _).rc, (candidate _).fssReached⟩
  | alone =>
      have candidate := findSinceCandidate_effect param env rec.lfsrFid st
      exact ⟨candidate.rc, candidate.fssReached⟩

omit [LustreFid] in
theorem sinceConsumer_verdict (param : FindParam) (env : SinceEnv) (fssMultiMdt : Bool)
    (rec : LlapiScanRec) (st : FindSinceState)
    : (sinceConsumer param env fssMultiMdt).verdict rec st = findSinceFilterCb param rec st := rfl

omit [LustreFid] in
/-- Only errors stop a scan. -/
theorem sinceConsumer_stops (param : FindParam) (env : SinceEnv) (fssMultiMdt : Bool)
    (scanEnv : ScanEnv)
    : Stops scanEnv (sinceConsumer param env fssMultiMdt) (· < 0) := by
  refine ⟨fun rec st fails => fails, fun rec st fails => ?_, fun _ _ => by decide⟩
  exact Int.lt_iff_le_and_ne.mpr
    ⟨(findSinceCandCb_effect param env fssMultiMdt rec st).1, fails⟩

section Scan

variable (site : Site) (param : FindParam) (env : SinceEnv) (logs : LogSource W)
  (starts : Anchors) (fssMultiMdt : Bool)

/-- The rule for an MDT's scan that did not fail: it read all there was, and what every
delivery keeps holds at its end.
-/
theorem scanMdt_covers (mdt : Nat) (p : Progress W)
    {holds : Deliveries → FindSinceState → ScanClSeen → Prop}
    (kept : KeptByDelivery (sinceScanParams site param mdt)
      (sinceConsumer param env fssMultiMdt) holds)
    (first : holds [] { p.st with fssReached := p.reached mdt } {})
    (increasing : (logs.recv mdt (param.startrec (starts mdt)) p.world).1.log.Pairwise
      (·.crIndex < ·.crIndex))
    : let reading := logs.recv mdt (param.startrec (starts mdt)) p.world
      let result := scanMdt site param env logs starts fssMultiMdt mdt p
      0 ≤ result.1
        → result.1 = 0
          ∧ reading.1.readEnd = 1
          ∧ result.2
            = {
                st := result.2.st
                reached := Function.update p.reached mdt result.2.st.fssReached
                scans := p.scans
                  ++ [
                    {
                      mdt
                      startrec := param.startrec (starts mdt)
                      read := reading.1.log
                      after := reading.2
                    }
                  ]
                world := reading.2
              }
          ∧ ∃ sent seen, holds sent result.2.st seen ∧ Covers reading.1.log sent := by
  intro reading result ok
  have accepted : (sinceScanParams site param mdt).refused = false := by
    simp [ScanParams.refused, sinceScanParams]
  have stops := sinceConsumer_stops param env fssMultiMdt reading.1.env
  obtain ⟨ok, begun, unstopped⟩ :=
    llapiScanChangelog_unstopped accepted stops reading.1.log reading.1.ended _ ok
  obtain ⟨read, returned⟩ :=
    llapiScanChangelog_recordsRead rfl begun reading.1.log reading.1.readEnd _ unstopped
  have ended : reading.1.readEnd = 1 := by
    refine reading.1.ended.resolve_right fun failed => ?_
    rw [ok] at returned
    split at returned
    · rename_i eof
      have eof := eq_of_beq eof
      omega
    · omega
  obtain ⟨sent, here, covers⟩ :=
    llapiScanChangelog_covers _ _ _ kept rfl begun reading.1.log reading.1.readEnd _ first
      increasing unstopped
  have whole : inRange (sinceScanParams site param mdt) reading.1.log = reading.1.log :=
    List.filter_eq_self.mpr fun _ _ => rfl
  refine ⟨ok, ended, ?_, sent, _, here, whole ▸ covers⟩
  simp only [result, scanMdt, read, reading]

end Scan

-----------------------------------------------------------------------------------------
-- The first record of a log
-----------------------------------------------------------------------------------------

/-- The callback takes the index of the first event and stops. -/
theorem scanClDeliver_first (sc : ScanParams) (scanEnv : ScanEnv) (s : ScanCl UInt64)
    {o : ScanClObj} {r : ChangelogRec} (tells : o.Tells r)
    : let result := scanClDeliver sc scanEnv clFirstConsumer s o false
      result.1 = 1 ∧ result.2.slData = r.crIndex := by
  have cb : clFirstConsumer.cb (scanClRecEvent o) s.slData = (1, o.coIndex) := by
    show findClFirstCb _ _ = _
    unfold findClFirstCb
    rw [show (scanClRecEvent o).lfsrValid.event = true from tells.event]
    rfl
  have asked : clFirstConsumer.ask (scanClRecEvent o) s = (0, s) := rfl
  simp [scanClDeliver, asked, cb, tells.coIndex]

theorem scanRecord_first (scanEnv : ScanEnv) {sc : ScanParams} (events : sc.coalesce = false)
    (s : ScanCl UInt64) (r : ChangelogRec)
    : let result := scanRecord sc scanEnv clFirstConsumer s r
      result.1 = 1 ∧ result.2.slData = r.crIndex := by
  obtain ⟨fid, rest, fids⟩ : ∃ fid rest, eventFids r = fid :: rest := by
    apply List.exists_cons_of_ne_nil
    unfold eventFids
    split
    · simp
    · rename_i some
      simpa using some
  have loop (s : ScanCl UInt64)
      : let result := eventLoop sc scanEnv clFirstConsumer r (eventFids r) s
        result.1 = 1 ∧ result.2.slData = r.crIndex := by
    have tells := (scanClAbsorb_effect scanEnv.memory s.allocs {} r fid).tells
    rw [fids]
    unfold eventLoop
    generalize scanClAbsorb scanEnv.memory s.allocs {} r fid = made at tells ⊢
    obtain ⟨stops, taken⟩ :=
      scanClDeliver_first sc scanEnv { s with allocs := made.2 } tells
    simp only [stops]
    exact ⟨rfl, taken⟩
  unfold scanRecord scanClEvent
  simp [events, loop]

/-- A scan that stops at the first record has its index. -/
theorem llapiScanChangelog_first {name : Bytes} {scanEnv : ScanEnv}
    (begun : Starts { mdtname := some name } scanEnv) (log : List ChangelogRec) (readEnd : Int)
    : (llapiScanChangelog { mdtname := some name } scanEnv clFirstConsumer log readEnd 0).2.slData
      = (log.head?.map (·.crIndex)).getD 0 := by
  have finished (rc : Int) (s : ScanCl UInt64)
      : (scanFinish { mdtname := some name } scanEnv clFirstConsumer rc s).2.slData
        = s.slData := by
    simp [scanFinish, scanClClear]
  rw [llapiScanChangelog_of_starts _ begun, finished]
  cases log with
  | nil => rfl
  | cons r rest =>
      have events : ({ mdtname := some name } : ScanParams).coalesce = false := rfl
      unfold scanLoop
      simp [scanRecord_first scanEnv events]

/-- The first record a reading gives, if that does not fail. -/
theorem findClFirst_effect (site : Site) (logs : LogSource W) (mdt : Nat) (startrec : UInt64)
    (w : W)
    : let reading := logs.first mdt startrec w
      let result := findClFirst site logs mdt startrec w
      result.2.2 = reading.2
        ∧ (¬result.1 < 0
          → result.2.1 = (reading.1.log.head?.map (·.crIndex)).getD 0
            ∧ (reading.1.log = [] → reading.1.readEnd = 1)) := by
  refine ⟨rfl, fun ok => ?_⟩
  have returned : 0 ≤ (llapiScanChangelog { mdtname := some (mdtname site.fsname mdt) }
      (logs.first mdt startrec w).1.env clFirstConsumer (logs.first mdt startrec w).1.log
      (logs.first mdt startrec w).1.readEnd 0).1 := by
    refine Int.not_lt.mp fun fails => ok ?_
    unfold findClFirst
    dsimp only
    rwa [if_pos fails]
  have begun := starts_of_llapiScanChangelog rfl _ _ _ returned
  refine ⟨llapiScanChangelog_first begun _ _, fun empty => ?_⟩
  refine (logs.first mdt startrec w).1.ended.resolve_right fun failed => ?_
  rw [empty, llapiScanChangelog_of_starts _ begun] at returned
  have eof : (logs.first mdt startrec w).1.readEnd ≠ 1 := by omega
  simp [scanLoop, scanFinish, scanClClear, eof] at returned
  omega

section Prepare

variable {site : Site} {param : FindParam} {env : SinceEnv} {file : Option Bytes}

omit [LustreFid] in
theorem findSinceSetup_ok (ok : 0 ≤ findSinceSetup param env)
    : param.fpSinceCookie = none ∨ param.fpSince = .none := by
  by_contra both
  rw [not_or, ← ne_eq, ← Option.isSome_iff_ne_none] at both
  have refused : (param.fpSinceCookie.isSome && param.fpSince != .none) = true := by
    simp [both.1, both.2]
  unfold findSinceSetup at ok
  rw [if_pos refused] at ok
  split at ok
  · exact absurd ok (by decide)
  · split at ok <;> exact absurd ok (by decide)

omit [LustreFid] in
theorem findSincePrepare_ok {mdts : List Nat} {starts : Anchors}
    (prepared : findSincePrepare site param env file = .ok (mdts, starts))
    : 0 ≤ findSinceSetup param env
      ∧ findSinceStarts site param env file = .ok starts
      ∧ findSinceMdts site param env = .ok mdts := by
  unfold findSincePrepare at prepared
  dsimp only at prepared
  split at prepared
  · cases prepared
  rename_i ok
  split at prepared
  · cases prepared
  rename_i started
  split at prepared
  · cases prepared
  rename_i covered
  split at prepared
  · cases prepared
  split at prepared
  · cases prepared
  split at prepared
  · cases prepared
  · cases prepared
    exact ⟨Int.not_lt.mp ok, started, covered⟩

end Prepare

end LfuScan.Find
