import LfuScan.Core.Stats
import LfuScan.Filter.Eval

/-! The pipeline every backend shares: prefilter, classify, judge, emit. -/

namespace LfuScan.Core

open LfuScan.Lustre LfuScan.Filter

/-- The options of a scan that reach an object. -/
structure LfuOpts where
  verbose : Bool := false
  showInternal : Bool := false
  quiet : Bool := false
  limit : UInt64 := 0
  emitUnknown : Bool := false
  filter : LfuFilter := {}

/-- What the pipeline asks of a backend: its name for an object id, and whether it has
applied the whole filter itself.
-/
structure LfuTargetOps where
  idLabel : Bytes
  pushdown : Bool := false

/-- The context of one worker. -/
structure LfuCtx where
  o : LfuOpts
  ops : LfuTargetOps
  now : Int
  needs : UInt32
  st : LfuStats := {}
  stop : Bool := false

def lfuClassify (rec : LfuRec) (haveLma : Bool) : LfuClass :=
  if !haveLma then
    .noLma
  else if rec.lmaIncompat &&& ~~~lmaIncompatSupp != 0 then
    .bad
  else if rec.lmaCompat &&& lmacNotInOi != 0 then
    .internal
  else if rec.lmaIncompat &&& lmaiAgent != 0 then
    .agent
  else if rec.lmaCompat &&& lmacFidOnOst != 0 then
    .ostObj
  else if fidSeqIsIdif rec.fid.fSeq then
    .ostObj
  else if fidSeqIsInternal rec.fid.fSeq then
    .internal
  else if fidSeqIsNamespaceVisible rec.fid.fSeq then
    .visible
  else
    .internal

/-- Whether the object survives tier 0, with the counters after that. -/
def lfuPrefilter (cx : LfuCtx) (rec : LfuRec) : Bool × LfuCtx :=
  if !lfuFilterActive cx.o.filter || cx.ops.pushdown then
    (true, cx)
  else if lfuFilterTier0 cx.o.filter rec cx.now then
    (true, cx)
  else
    (false, { cx with st := { cx.st with filtered := cx.st.filtered + 1 } })

theorem lfuPrefilter_survives (cx : LfuCtx) (rec : LfuRec)
    : (lfuPrefilter cx rec).1
      = (!lfuFilterActive cx.o.filter || cx.ops.pushdown
          || lfuFilterTier0 cx.o.filter rec cx.now) := by
  unfold lfuPrefilter
  grind

/-- It counts what it rejects, and leaves everything else alone. -/
theorem lfuPrefilter_state (cx : LfuCtx) (rec : LfuRec)
    : (lfuPrefilter cx rec).2
      = if (lfuPrefilter cx rec).1 then cx
        else { cx with st := { cx.st with filtered := cx.st.filtered + 1 } } := by
  unfold lfuPrefilter
  split
  · rfl
  · split <;> rfl

/-- The letter of a file type. -/
def lfuTypeChar (mode : UInt16) : Char :=
  let fmt := mode &&& 0o170000
  if fmt == 0o100000 then 'f'
  else if fmt == 0o040000 then 'd'
  else if fmt == 0o120000 then 'l'
  else if fmt == 0o060000 then 'b'
  else if fmt == 0o020000 then 'c'
  else if fmt == 0o010000 then 'p'
  else if fmt == 0o140000 then 's'
  else '?'

/-- The arguments of the one `printf` of a record: its prefix is the class of a diagnostic
line, its layout part the stripe count, stripe size and pool.
-/
structure Line where
  diagnostic : Option LfuClass
  fid : LuFid
  idLabel : Bytes
  id : UInt64
  type : Char
  mode : UInt16
  nlink : UInt32
  uid : UInt32
  gid : UInt32
  projid : UInt32
  size : UInt64
  blocks : UInt64
  atime : UInt32
  mtime : UInt32
  layout : Option (UInt32 × UInt32 × Bytes)
  extea : Bool
  orphan : Bool
  encrypted : Bool
  unknown : Bool
deriving DecidableEq, Repr

def lfuEmit (cx : LfuCtx) (diagnostic : Option LfuClass) (rec : LfuRec) (unknown : Bool)
    : Line :=
  let sized := rec.t1Valid && rec.t1.haveSom
  {
    diagnostic
    fid := rec.fid
    idLabel := cx.ops.idLabel
    id := rec.id
    type := lfuTypeChar rec.mode
    mode := rec.mode &&& 0o7777
    nlink := rec.nlink
    uid := rec.uid
    gid := rec.gid
    projid := rec.projid
    size := if sized then rec.t1.somSize else rec.size
    blocks := if sized then rec.t1.somBlocks else rec.blocks
    atime := rec.atime
    mtime := rec.mtime
    layout :=
      if rec.t1Valid && rec.t1.haveLov then
        some (rec.t1.stripeCount, rec.t1.stripeSize,
          rec.t1.pool.toList.takeWhile (· != 0))
      else
        none
    extea := rec.hasExtEa
    orphan := rec.lmaIncompat &&& lmaiOrphan != 0
    encrypted := rec.lmaIncompat &&& lmaiEncrypt != 0
    unknown
  }

/-- Decode the demanded attributes into the record, once. -/
def decodeObject (cx : LfuCtx) (rec : LfuRec) (eas : Option LfuEas) : LfuCtx × LfuRec :=
  if cx.needs != 0 && !rec.t1Valid then
    (
      if eas.any (·.external) then
        { cx with st := { cx.st with tier2Read := cx.st.tier2Read + 1 } }
      else
        cx,
      { rec with t1 := lfuEaDecode eas, t1Valid := true })
  else
    (cx, rec)

theorem decodeObject_rec (cx : LfuCtx) (rec : LfuRec) (eas : Option LfuEas)
    : (decodeObject cx rec eas).2
      = if cx.needs != 0 && !rec.t1Valid then
          { rec with t1 := lfuEaDecode eas, t1Valid := true }
        else
          rec := by
  unfold decodeObject
  split <;> rfl

/-- Decoding counts the reads outside the inode, and leaves everything else alone. -/
theorem decodeObject_state (cx : LfuCtx) (rec : LfuRec) (eas : Option LfuEas)
    : ∃ reads,
        (decodeObject cx rec eas).1 = { cx with st := { cx.st with tier2Read := reads } } := by
  unfold decodeObject
  split
  · dsimp only
    split
    · exact ⟨_, rfl⟩
    · exact ⟨cx.st.tier2Read, rfl⟩
  · exact ⟨cx.st.tier2Read, rfl⟩

/-- The verdict of a pushdown backend, or of tier 1, or a match when nothing is demanded. -/
def objectVerdict (env : Platform) (cx : LfuCtx) (rec : LfuRec) (eas : Option LfuEas)
    : LfuMatch :=
  if cx.ops.pushdown then
    if rec.unknown then .unknown else .matched
  else if cx.needs != 0 then
    lfuFilterTier1 env cx.o.filter rec rec.t1 eas
  else
    .matched

/-- Count and print a record that passed, and stop at the limit. -/
def emitObject (cx : LfuCtx) (rec : LfuRec) (m : LfuMatch) : LfuCtx × List Line :=
  let cx := { cx with st := { cx.st with emitted := cx.st.emitted + 1 } }
  (
    if cx.o.limit != 0 && cx.st.emitted ≥ cx.o.limit then { cx with stop := true } else cx,
    if !cx.o.quiet && !cx.o.verbose then [lfuEmit cx none rec (m == .unknown)] else [])

/-- What follows classification, for an object of a class that is shown. -/
def judgeObject (env : Platform) (cx : LfuCtx) (rec : LfuRec) (eas : Option LfuEas)
    : LfuCtx × List Line :=
  match objectVerdict env cx rec eas with
  | .noMatch => ({ cx with st := { cx.st with filtered1 := cx.st.filtered1 + 1 } }, [])
  | .matched => emitObject cx rec .matched
  | .unknown =>
      if cx.ops.pushdown then
        emitObject cx rec .unknown
      else
        let cx := { cx with st := { cx.st with unknown := cx.st.unknown + 1 } }
        if cx.o.emitUnknown then emitObject cx rec .unknown else (cx, [])

/-- `cx->st->cls[c]++`. -/
def countClass (cx : LfuCtx) (c : LfuClass) : LfuCtx :=
  { cx with st := { cx.st with cls := Function.update cx.st.cls c (cx.st.cls c + 1) } }

/-- The class is neither visible nor asked for. -/
def hiddenClass (o : LfuOpts) (c : LfuClass) : Bool :=
  c != .visible && !(o.showInternal && c == .internal)

/-- What follows decoding: the diagnostic line, and the verdict if the class is shown. -/
def showObject (env : Platform) (cx : LfuCtx) (c : LfuClass) (rec : LfuRec)
    (eas : Option LfuEas)
    : LfuCtx × List Line :=
  let diagnostic :=
    if cx.o.verbose && !cx.o.quiet then [lfuEmit cx (some c) rec false] else []
  if hiddenClass cx.o c then
    (cx, diagnostic)
  else
    let (cx, lines) := judgeObject env cx rec eas
    (cx, diagnostic ++ lines)

/-- Classify one object, judge it, and emit it if it matches; the new context and the
lines printed.
-/
def lfuObject (env : Platform) (cx : LfuCtx) (rec : LfuRec) (haveLma : Bool)
    (eas : Option LfuEas)
    : LfuCtx × List Line :=
  let c := lfuClassify rec haveLma
  let (cx, rec) := decodeObject (countClass cx c) rec eas
  showObject env cx c rec eas

-----------------------------------------------------------------------------------------
-- What an object adds to the counters does not depend on what was counted before
-----------------------------------------------------------------------------------------

/-- The part of a context that does not change during a scan, with fresh counters. -/
def LfuCtx.base (cx : LfuCtx) : LfuCtx := { cx with st := 0, stop := false }

/-- A step of the pipeline that leaves the fixed part of the context alone and adds the
same counts to whatever has been counted.
-/
def AddsCounts (step : LfuCtx → LfuCtx) (base : LfuCtx) (counts : LfuStats) : Prop :=
  ∀ cx : LfuCtx, cx.base = base → (step cx).base = base ∧ (step cx).st = cx.st + counts

theorem AddsCounts.comp {first second : LfuCtx → LfuCtx} {base : LfuCtx}
    {left right : LfuStats} (before : AddsCounts first base left)
    (after : AddsCounts second base right)
    : AddsCounts (fun cx => second (first cx)) base (left + right) := by
  intro cx same
  obtain ⟨middle, counted⟩ := before cx same
  obtain ⟨last, countedAgain⟩ := after (first cx) middle
  exact ⟨last, by rw [countedAgain, counted, add_assoc]⟩

theorem AddsCounts.congr {step other : LfuCtx → LfuCtx} {base : LfuCtx} {counts : LfuStats}
    (adds : AddsCounts step base counts)
    (agree : ∀ cx : LfuCtx, cx.base = base → other cx = step cx)
    : AddsCounts other base counts := by
  intro cx same
  rw [agree cx same]
  exact adds cx same

theorem AddsCounts.id (base : LfuCtx) : AddsCounts (fun cx => cx) base 0 :=
  fun _ same => ⟨same, (add_zero _).symm⟩

theorem emitObject_counts (base : LfuCtx) (rec : LfuRec) (m : LfuMatch)
    : AddsCounts (fun cx => (emitObject cx rec m).1) base { emitted := 1 } := by
  intro cx same
  have counted
      : ({ cx.st with emitted := cx.st.emitted + 1 } : LfuStats) = cx.st + { emitted := 1 } := by
    ext <;> simp [stats_add_eq, lfuStatsMerge]
  simp only [emitObject]
  split
  · exact ⟨same, counted⟩
  · exact ⟨same, counted⟩

theorem lfuPrefilter_counts (base : LfuCtx) (rec : LfuRec)
    : ∃ counts, AddsCounts (fun cx => (lfuPrefilter cx rec).2) base counts := by
  have rejected
      : AddsCounts (fun cx => { cx with st := { cx.st with filtered := cx.st.filtered + 1 } })
          base { filtered := 1 } :=
    fun _ same => ⟨same, by ext <;> simp [stats_add_eq, lfuStatsMerge]⟩
  by_cases survives : (lfuPrefilter base rec).1 = true
  · refine ⟨_, (AddsCounts.id base).congr fun cx same => ?_⟩
    subst same
    simp only [lfuPrefilter, LfuCtx.base] at survives ⊢
    grind
  · refine ⟨_, rejected.congr fun cx same => ?_⟩
    subst same
    simp only [lfuPrefilter, LfuCtx.base] at survives ⊢
    grind

theorem decodeObject_counts (base : LfuCtx) (rec : LfuRec) (eas : Option LfuEas)
    : ∃ counts, AddsCounts (fun cx => (decodeObject cx rec eas).1) base counts := by
  have fetched
      : AddsCounts (fun cx => { cx with st := { cx.st with tier2Read := cx.st.tier2Read + 1 } })
          base { tier2Read := 1 } :=
    fun _ same => ⟨same, by ext <;> simp [stats_add_eq, lfuStatsMerge]⟩
  by_cases external : (base.needs != 0 && !rec.t1Valid && eas.any (·.external)) = true
  · refine ⟨_, fetched.congr fun cx same => ?_⟩
    subst same
    simp only [decodeObject, LfuCtx.base] at external ⊢
    grind
  · refine ⟨_, (AddsCounts.id base).congr fun cx same => ?_⟩
    subst same
    simp only [decodeObject, LfuCtx.base] at external ⊢
    grind

theorem judgeObject_counts (env : Platform) (base : LfuCtx) (rec : LfuRec)
    (eas : Option LfuEas)
    : ∃ counts, AddsCounts (fun cx => (judgeObject env cx rec eas).1) base counts := by
  have verdict_base (cx : LfuCtx)
      : objectVerdict env cx rec eas = objectVerdict env cx.base rec eas := rfl
  have rejected
      : AddsCounts
          (fun cx => { cx with st := { cx.st with filtered1 := cx.st.filtered1 + 1 } })
          base { filtered1 := 1 } :=
    fun _ same => ⟨same, by ext <;> simp [stats_add_eq, lfuStatsMerge]⟩
  have undecided
      : AddsCounts (fun cx => { cx with st := { cx.st with unknown := cx.st.unknown + 1 } })
          base { unknown := 1 } :=
    fun _ same => ⟨same, by ext <;> simp [stats_add_eq, lfuStatsMerge]⟩
  have emitted := emitObject_counts base rec
  cases verdict : objectVerdict env base rec eas with
  | noMatch =>
      refine ⟨_, rejected.congr fun cx same => ?_⟩
      simp only [judgeObject, verdict_base cx, same, verdict]
  | matched =>
      refine ⟨_, (emitted .matched).congr fun cx same => ?_⟩
      simp only [judgeObject, verdict_base cx, same, verdict]
  | unknown =>
      by_cases pushed : base.ops.pushdown = true
      · refine ⟨_, (emitted .unknown).congr fun cx same => ?_⟩
        simp only [judgeObject, verdict_base cx, same, verdict]
        subst same
        exact if_pos pushed ▸ rfl
      by_cases wanted : base.o.emitUnknown = true
      · refine ⟨_, (undecided.comp (emitted .unknown)).congr fun cx same => ?_⟩
        simp only [judgeObject, verdict_base cx, same, verdict]
        subst same
        simp only [LfuCtx.base] at pushed wanted
        simp only [pushed, wanted, if_true, if_false, Bool.false_eq_true]
      · refine ⟨_, undecided.congr fun cx same => ?_⟩
        simp only [judgeObject, verdict_base cx, same, verdict]
        subst same
        simp only [LfuCtx.base] at pushed wanted
        simp only [pushed, wanted, if_false, Bool.false_eq_true]

theorem countClass_counts (base : LfuCtx) (c : LfuClass)
    : AddsCounts (fun cx => countClass cx c) base
        { cls := Function.update (fun _ => 0) c 1 } := by
  refine fun cx same => ⟨same, ?_⟩
  ext other
  case cls =>
    by_cases this : other = c <;> simp [countClass, stats_add_eq, lfuStatsMerge, this]
  all_goals simp [countClass, stats_add_eq, lfuStatsMerge]

theorem showObject_counts (env : Platform) (base : LfuCtx) (c : LfuClass) (rec : LfuRec)
    (eas : Option LfuEas)
    : ∃ counts, AddsCounts (fun cx => (showObject env cx c rec eas).1) base counts := by
  have hidden_base (cx : LfuCtx) : hiddenClass cx.o c = hiddenClass cx.base.o c := rfl
  obtain ⟨_, judged⟩ := judgeObject_counts env base rec eas
  cases hidden : hiddenClass base.o c with
  | true =>
      refine ⟨_, (AddsCounts.id base).congr fun cx same => ?_⟩
      simp only [showObject, hidden_base cx, same, hidden, if_true]
  | false =>
      refine ⟨_, judged.congr fun cx same => ?_⟩
      simp only [showObject, hidden_base cx, same, hidden, Bool.false_eq_true, if_false]

theorem lfuObject_counts (env : Platform) (base : LfuCtx) (rec : LfuRec) (haveLma : Bool)
    (eas : Option LfuEas)
    : ∃ counts, AddsCounts (fun cx => (lfuObject env cx rec haveLma eas).1) base counts := by
  have classified := countClass_counts base (lfuClassify rec haveLma)
  obtain ⟨_, decoded⟩ := decodeObject_counts base rec eas
  obtain ⟨_, shown⟩ :=
    showObject_counts env base (lfuClassify rec haveLma) (decodeObject base rec eas).2 eas
  refine ⟨_, ((classified.comp decoded).comp shown).congr fun cx same => ?_⟩
  have record : (decodeObject (countClass cx (lfuClassify rec haveLma)) rec eas).2
      = (decodeObject base rec eas).2 := by
    rw [decodeObject_rec, decodeObject_rec, ← (classified cx same).1]
    rfl
  simp only [lfuObject, record]

section NoLimit

variable (env : Platform) (cx : LfuCtx) (rec : LfuRec) (eas : Option LfuEas)

theorem emitObject_going (m : LfuMatch) (noLimit : cx.o.limit = 0)
    : (emitObject cx rec m).1.stop = cx.stop := by
  simp [emitObject, noLimit]

theorem judgeObject_going (noLimit : cx.o.limit = 0)
    : (judgeObject env cx rec eas).1.stop = cx.stop := by
  unfold judgeObject
  split
  · rfl
  · exact emitObject_going cx rec _ noLimit
  · split
    · exact emitObject_going cx rec _ noLimit
    · simp only
      split
      · exact emitObject_going { cx with st := _ } rec _ noLimit
      · rfl

theorem decodeObject_going
    : (decodeObject cx rec eas).1.stop = cx.stop ∧ (decodeObject cx rec eas).1.o = cx.o := by
  obtain ⟨reads, state⟩ := decodeObject_state cx rec eas
  rw [state]
  exact ⟨rfl, rfl⟩

theorem showObject_going (c : LfuClass) (noLimit : cx.o.limit = 0)
    : (showObject env cx c rec eas).1.stop = cx.stop := by
  simp only [showObject]
  split
  · rfl
  · exact judgeObject_going env cx rec eas noLimit

theorem lfuObject_going (haveLma : Bool) (noLimit : cx.o.limit = 0)
    : (lfuObject env cx rec haveLma eas).1.stop = cx.stop := by
  have going := decodeObject_going (countClass cx (lfuClassify rec haveLma)) rec eas
  simp only [lfuObject]
  generalize decodeObject (countClass cx (lfuClassify rec haveLma)) rec eas = decoded
    at going ⊢
  obtain ⟨stop, o⟩ := going
  exact (showObject_going env decoded.1 decoded.2 eas _ (by rw [o]; exact noLimit)).trans stop

theorem lfuPrefilter_going
    : (lfuPrefilter cx rec).2.stop = cx.stop ∧ (lfuPrefilter cx rec).2.o = cx.o := by
  unfold lfuPrefilter
  split
  · exact ⟨rfl, rfl⟩
  · split <;> exact ⟨rfl, rfl⟩

end NoLimit

end LfuScan.Core
