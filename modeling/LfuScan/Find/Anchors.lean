import LfuScan.Find.Since
import LfuScan.Foundations.Journal

/-! A since-cookie never skips records silently. The only memory of a sequence of runs is the
file with the anchors; between any two readings records are logged and purged. A run that
succeeds has read all that was logged between its anchors, and every other run leaves them.
-/

namespace LfuScan.Find

open LfuScan.Foundations LfuScan.Lustre LfuScan.Changelog Journal

-----------------------------------------------------------------------------------------
-- Logs that change while they are read
-----------------------------------------------------------------------------------------

def recordIndex (r : ChangelogRec) : Nat := r.crIndex.toNat

abbrev LogEvent := JournalEvent Nat ChangelogRec

/-- The reader fails after some records. -/
structure ReadFailure where
  count : Nat
  rc : Int
  error : rc < 0

/-- What happens before a reading and between its records, and how it fails, if it does. -/
structure ReadPlan where
  before : List LogEvent := []
  between : List (List LogEvent) := []
  failure : Option ReadFailure := none
  env : ScanEnv := {}

def ReadPlan.reading (plan : ReadPlan) (records : List ChangelogRec) : Reading :=
  match plan.failure with
  | none => { log := records, env := plan.env }
  | some failure =>
      {
        log := records.take failure.count
        readEnd := failure.rc
        env := plan.env
        ended := .inr failure.error
      }

/-- The logs of all MDTs, and the number of readings so far. -/
structure World where
  logs : Nat → Journal recordIndex
  readings : Nat := 0

/-- Logs that are read while `plans` is what happens to them. The purge test of an MDT is a
reading from index 0, and marks its log.
-/
def LogSource.live (plans : Nat → ReadPlan) : LogSource World where
  first mdt startrec w :=
    let plan := plans w.readings
    let logs := happen plan.before w.logs
    let records := ((logs mdt).onwards startrec.toNat).take 1
    let logs := if startrec = 0 then Function.update logs mdt (logs mdt).mark else logs
    (plan.reading records, { logs, readings := w.readings + 1 })
  recv mdt startrec w :=
    let plan := plans w.readings
    let (records, logs) := receive mdt plan.between startrec.toNat (happen plan.before w.logs)
    (plan.reading records, { logs, readings := w.readings + 1 })

/-- The world some time later. -/
def World.Later (before after : World) : Prop :=
  ∀ mdt, Journal.Later (before.logs mdt) (after.logs mdt)

theorem World.Later.refl (w : World) : w.Later w := fun _ => .refl _

theorem World.Later.trans {before middle after : World} (first : before.Later middle)
    (second : middle.Later after)
    : before.Later after :=
  fun mdt => (first mdt).trans (second mdt)

/-- A reading that did not fail gives all there is. -/
theorem reading_log {plan : ReadPlan} {records : List ChangelogRec}
    (ended : (plan.reading records).readEnd = 1)
    : (plan.reading records).log = records := by
  unfold ReadPlan.reading at ended ⊢
  cases failed : plan.failure with
  | none => rfl
  | some failure =>
      rw [failed] at ended
      have error := failure.error
      have ended : failure.rc = 1 := ended
      omega

theorem reading_sublist (plan : ReadPlan) (records : List ChangelogRec)
    : (plan.reading records).log.Sublist records := by
  unfold ReadPlan.reading
  split
  · exact List.Sublist.refl _
  · exact List.take_sublist _ _

section Live

variable (plans : Nat → ReadPlan) (mdt : Nat) (startrec : UInt64) (w : World)

theorem first_evolves {other : Nat} (unmarked : other ≠ mdt ∨ startrec ≠ 0)
    : Evolves (w.logs other) (((LogSource.live plans).first mdt startrec w).2.logs other) := by
  have happened := happen_evolves (plans w.readings).before w.logs other
  unfold LogSource.live
  dsimp only
  split
  · rename_i zero
    rw [Function.update_of_ne (unmarked.resolve_right (by simp [zero]))]
    exact happened
  · exact happened

theorem first_marked
    : ((LogSource.live plans).first mdt 0 w).2.logs mdt
      = (happen (plans w.readings).before w.logs mdt).mark := by
  unfold LogSource.live
  dsimp only
  rw [if_pos rfl, Function.update_self]

theorem first_later : w.Later ((LogSource.live plans).first mdt startrec w).2 := by
  intro other
  by_cases marked : other = mdt ∧ startrec = 0
  · obtain ⟨rfl, rfl⟩ := marked
    rw [first_marked]
    exact (happen_evolves _ w.logs other).toLater.trans (mark_later _)
  · exact (first_evolves plans mdt startrec w (not_and_or.mp marked)).toLater

theorem recv_received
    : let reading := (LogSource.live plans).recv mdt startrec w
      ∃ records, reading.1 = (plans w.readings).reading records
        ∧ Received mdt startrec.toNat w.logs records reading.2.logs := by
  have received := receive_received mdt (plans w.readings).between startrec.toNat
    (happen (plans w.readings).before w.logs)
  refine ⟨_, rfl, ?_⟩
  exact { received with
    evolves := fun other => (happen_evolves _ w.logs other).trans (received.evolves other) }

end Live

-----------------------------------------------------------------------------------------
-- The purge test
-----------------------------------------------------------------------------------------

/-- What a purge test that passed says of an anchor, until the log is purged. -/
structure Checked (journal : Journal recordIndex) (anchor : UInt64) : Prop where
  next : (anchor + 1).toNat = anchor.toNat + 1
  intact : journal.Intact anchor.toNat

theorem Checked.evolves {before after : Journal recordIndex} {anchor : UInt64}
    (checked : Checked before anchor) (evolves : Evolves before after)
    : Checked after anchor :=
  ⟨checked.next, evolves.intact _ checked.intact⟩

variable [LustreFid]

section Check

variable (site : Site) (plans : Nat → ReadPlan) {starts : Anchors}

theorem findClFirst_later (mdt : Nat) (startrec : UInt64) (w : World)
    : w.Later (findClFirst site (.live plans) mdt startrec w).2.2 :=
  first_later plans mdt startrec w

theorem findClFirst_checked (anchor : UInt64) {mdt : Nat} {w : World} {r : ChangelogRec}
    (logged : r ∈ (w.logs mdt).history)
    : let result := findClFirst site (.live plans) mdt 0 w
      ¬result.1 < 0
        → ¬result.2.1 > anchor + 1
          → result.2.1 ≠ 0 ∧ Checked (result.2.2.logs mdt) anchor := by
  intro result ok near
  obtain ⟨world, found⟩ := findClFirst_effect site (.live plans) mdt 0 w
  obtain ⟨first, eof⟩ := found ok
  change result.2.1 = _ at first
  change result.2.2 = _ at world
  have happened := happen_evolves (plans w.readings).before w.logs mdt
  generalize happens : happen (plans w.readings).before w.logs = logs at happened
  -- something is left of the log
  have some : (logs mdt).onwards 0 ≠ [] := by
    have all : (logs mdt).onwards 0 = (logs mdt).current :=
      List.filter_eq_self.mpr fun _ _ => decide_eq_true (Nat.zero_le _)
    rw [all]
    exact current_ne_nil (happened.history.subset logged)
  obtain ⟨oldest, rest, there⟩ := List.exists_cons_of_ne_nil some
  have reading : ((LogSource.live plans).first mdt 0 w).1
      = (plans w.readings).reading [oldest] := by
    show (plans w.readings).reading _ = _
    rw [happens]
    exact congrArg _ (congrArg (List.take 1) there)
  rw [reading] at first eof
  have nonempty : ((plans w.readings).reading [oldest]).log = [oldest] := by
    by_cases empty : ((plans w.readings).reading [oldest]).log = []
    · exact reading_log (eof empty)
    · have part := reading_sublist (plans w.readings) [oldest]
      rcases List.sublist_singleton.mp part with none | all
      · exact absurd none empty
      · exact all
  rw [nonempty] at first
  have positive := (logs mdt).positive oldest (current_subset (head_le there).2.1)
  have index : result.2.1.toNat = recordIndex oldest := congrArg UInt64.toNat first
  have near : result.2.1.toNat ≤ (anchor + 1).toNat :=
    UInt64.le_iff_toNat_le.mp (UInt64.not_lt.mp near)
  have next : (anchor + 1).toNat = anchor.toNat + 1 := by
    rw [UInt64.toNat_add] at near ⊢
    have small := anchor.toNat_lt
    have one : (1 : UInt64).toNat = 1 := rfl
    rw [one] at near ⊢
    by_cases last : anchor.toNat + 1 = 2 ^ 64
    · rw [last, Nat.mod_self] at near
      omega
    · exact Nat.mod_eq_of_lt (by omega)
  refine ⟨fun zero => ?_, next, ?_⟩
  · rw [zero] at index
    exact absurd index.symm (Nat.ne_of_gt positive)
  · rw [world, first_marked, happens]
    exact intact_of_oldest there (by omega)

theorem cookieCheckLoop_evolves (mdts : List Nat) (w : World)
    : w.Later (cookieCheckLoop site (.live plans) starts mdts w).2
      ∧ ∀ other ∉ mdts,
          Evolves (w.logs other)
            ((cookieCheckLoop site (.live plans) starts mdts w).2.logs other) := by
  induction mdts generalizing w with
  | nil => exact ⟨.refl w, fun _ _ => .refl _⟩
  | cons mdt rest ih =>
      have first (startrec : UInt64) (w : World)
          : w.Later (findClFirst site (.live plans) mdt startrec w).2.2
            ∧ ∀ other ∉ mdt :: rest,
                Evolves (w.logs other)
                  ((findClFirst site (.live plans) mdt startrec w).2.2.logs other) := by
        refine ⟨findClFirst_later site plans mdt startrec w, fun other differs => ?_⟩
        exact first_evolves plans mdt startrec w
          (.inl fun same => differs (same ▸ List.mem_cons_self))
      have loop (w : World)
          : w.Later (cookieCheckLoop site (.live plans) starts rest w).2
            ∧ ∀ other ∉ mdt :: rest,
                Evolves (w.logs other)
                  ((cookieCheckLoop site (.live plans) starts rest w).2.logs other) :=
        ⟨(ih w).1, fun other differs =>
          (ih w).2 other fun member => differs (List.mem_cons_of_mem _ member)⟩
      have follows {u v x : World}
          (one : u.Later v ∧ ∀ other ∉ mdt :: rest, Evolves (u.logs other) (v.logs other))
          (two : v.Later x ∧ ∀ other ∉ mdt :: rest, Evolves (v.logs other) (x.logs other))
          : u.Later x ∧ ∀ other ∉ mdt :: rest, Evolves (u.logs other) (x.logs other) :=
        ⟨one.1.trans two.1, fun other differs =>
          (one.2 other differs).trans (two.2 other differs)⟩
      unfold cookieCheckLoop
      dsimp only
      split
      · exact loop w
      split
      · exact first 0 w
      split
      · exact first 0 w
      split
      · exact follows (first 0 w) (loop _)
      split
      · exact follows (first 0 w) (first _ _)
      split
      · exact follows (first 0 w) (first _ _)
      · exact follows (first 0 w) (follows (first _ _) (loop _))

/-- After the check of all MDTs the first of them is checked. -/
theorem cookieCheckLoop_checked {mdt : Nat} {rest : List Nat} (distinct : mdt ∉ rest)
    {w : World} (anchored : starts mdt ≠ 0) {r : ChangelogRec}
    (logged : r ∈ (w.logs mdt).history)
    : let result := cookieCheckLoop site (.live plans) starts (mdt :: rest) w
      ¬result.1 < 0 → Checked (result.2.logs mdt) (starts mdt) := by
  have checked := findClFirst_checked site plans (starts mdt) logged
  unfold cookieCheckLoop
  simp only [beq_iff_eq, anchored, if_false]
  dsimp only at checked ⊢
  split
  · exact fun ok => absurd ‹_› ok
  rename_i ok
  split
  · exact fun ok => absurd (show -estale < 0 by decide) ok
  rename_i near
  obtain ⟨nonzero, checked⟩ := checked ok near
  rw [if_neg (by simpa using nonzero)]
  have again := checked.evolves (first_evolves plans mdt (starts mdt) _ (.inr anchored))
  split
  · exact fun ok => absurd ‹_› ok
  split
  · exact fun ok => absurd (show -estale < 0 by decide) ok
  · exact fun _ => again.evolves ((cookieCheckLoop_evolves site plans rest _).2 mdt distinct)

end Check

-----------------------------------------------------------------------------------------
-- One MDT's scan
-----------------------------------------------------------------------------------------

/-- Where some deliveries have taken the anchor. -/
structure Reaches (anchor : UInt64) (sent : Deliveries) (st : FindSinceState) : Prop where
  forward : anchor ≤ st.fssReached
  upto : ∀ x ∈ sent, x.1.coIndex ≤ st.fssReached
  reached : st.fssReached = anchor ∨ ∃ x ∈ sent, x.1.coIndex = st.fssReached

theorem reaches_kept (sc : ScanParams) (param : FindParam) (env : SinceEnv)
    (fssMultiMdt : Bool) (anchor : UInt64)
    : KeptByDelivery sc (sinceConsumer param env fssMultiMdt)
        fun sent st _ => Reaches anchor sent st := by
  intro sent st seen o keyed after seenAfter reaches proper settles
  obtain ⟨last, _, tells⟩ := proper.tells
  obtain ⟨reached, asked, further, upto, same⟩ :=
    findSinceFilterCb_effect param (show (scanClRecEvent o).lfsrValid.event = true from tells.event)
      st
  have moved : after.fssReached = reached := by
    cases settles with
    | filtered => rw [sinceConsumer_verdict, asked]
    | repeated => rw [sinceConsumer_verdict, asked]
    | taken =>
        rw [sinceConsumer_verdict, asked]
        exact (findSinceCandCb_effect param env fssMultiMdt (scanClRecEvent o) _).2
  change o.coIndex ≤ reached at upto
  change reached = st.fssReached ∨ reached = o.coIndex at same
  refine ⟨?_, ?_, ?_⟩
  · rw [moved]
    exact UInt64.le_trans reaches.forward further
  · intro x member
    rw [moved]
    rcases List.mem_append.mp member with old | new
    · exact UInt64.le_trans (reaches.upto x old) further
    · rw [List.mem_singleton.mp new]
      exact upto
  · rw [moved]
    rcases same with same | same
    · rw [same]
      refine reaches.reached.imp_right fun ⟨x, member, here⟩ => ?_
      exact ⟨x, List.mem_append_left _ member, here⟩
    · exact .inr ⟨(o, keyed), List.mem_append_right _ List.mem_cons_self, same.symm⟩

section Covers

variable {anchor : UInt64} {sent : Deliveries} {st : FindSinceState} {log : List ChangelogRec}
  (reaches : Reaches anchor sent st) (covers : Covers log sent)
  (increasing : log.Pairwise (·.crIndex < ·.crIndex))

include reaches covers increasing

/-- The anchor is past all that was read: the last event of a delivery is its latest. -/
theorem Reaches.upto_read {r : ChangelogRec} (member : r ∈ log) : r.crIndex ≤ st.fssReached := by
  obtain ⟨x, delivered, gathered⟩ := covers.exists_delivery member
  obtain ⟨last, _, tells, latest⟩ := covers.last increasing delivered
  refine UInt64.le_trans ?_ (reaches.upto x delivered)
  rw [tells.coIndex]
  rcases latest r gathered with rfl | before
  · exact UInt64.le_refl _
  · exact UInt64.le_of_lt before

/-- The anchor is one of the records read, or where it was. -/
theorem Reaches.reached_read
    : st.fssReached = anchor ∨ ∃ r ∈ log, r.crIndex = st.fssReached := by
  refine reaches.reached.imp_right fun ⟨x, member, here⟩ => ?_
  obtain ⟨last, gathered, tells, _⟩ := covers.last increasing member
  exact ⟨last, (covers.events_sublist member).subset gathered, tells.coIndex.symm.trans here⟩

end Covers

/-- A scan that resumed at an anchor and took it to another one. -/
structure Resumed (anchor reached : UInt64) (scan : MdtScan World) : Prop where
  startrec : scan.startrec = 0 → anchor = 0
  forward : anchor ≤ reached
  above : ∀ r ∈ scan.read, anchor < r.crIndex
  upto : ∀ r ∈ scan.read, r.crIndex ≤ reached
  moved : reached = anchor ∨ ∃ r ∈ scan.read, r.crIndex = reached
  logged : ∀ r ∈ scan.read, r ∈ (scan.after.logs scan.mdt).history
  still
    : ∀ r ∈ (scan.after.logs scan.mdt).current, anchor < r.crIndex → r.crIndex ≤ reached
        → r ∈ scan.read
  intact : anchor ≠ 0 → (scan.after.logs scan.mdt).Intact anchor.toNat

section Start

variable {param : FindParam} {cookie : Bytes} (given : param.fpSinceCookie = some cookie)
  (unanchored : param.fpSince = .none) {anchor : UInt64} {journal : Journal recordIndex}
  (checked : anchor ≠ 0 → Checked journal anchor)

include given unanchored checked

omit [LustreFid] in
theorem startrec_toNat (present : anchor ≠ 0)
    : (param.startrec anchor).toNat = anchor.toNat + 1 := by
  have start : param.startrec anchor = anchor + 1 := by
    simp [FindParam.startrec, unanchored, given, present]
  rw [start]
  exact (checked present).next

omit [LustreFid] in
theorem eq_zero_of_startrec (zero : param.startrec anchor = 0) : anchor = 0 := by
  by_contra present
  have next := startrec_toNat given unanchored checked present
  rw [zero] at next
  cases next

omit [LustreFid] in
/-- A scan starts at the oldest record, or one past the anchor. -/
theorem startrec_le_iff {r : ChangelogRec} (positive : 0 < recordIndex r)
    : (param.startrec anchor).toNat ≤ recordIndex r ↔ anchor < r.crIndex := by
  rw [UInt64.lt_iff_toNat_lt]
  by_cases absent : anchor = 0
  · have start : param.startrec anchor = 0 := by simp [FindParam.startrec, unanchored, absent]
    rw [start, absent]
    exact ⟨fun _ => positive, fun _ => Nat.zero_le _⟩
  · rw [startrec_toNat given unanchored checked absent]
    exact Nat.succ_le_iff

end Start

section Scan

variable (site : Site) (param : FindParam) (env : SinceEnv) (plans : Nat → ReadPlan)
  (starts : Anchors) (fssMultiMdt : Bool) {cookie : Bytes}
  (given : param.fpSinceCookie = some cookie) (unanchored : param.fpSince = .none)

theorem scanMdt_later (mdt : Nat) (p : Progress World)
    : p.world.Later
        (scanMdt site param env (.live plans) starts fssMultiMdt mdt p).2.world := by
  obtain ⟨records, _, received⟩ :=
    recv_received plans mdt (param.startrec (starts mdt)) p.world
  exact fun other => (received.evolves other).toLater

include given unanchored

theorem scanMdt_resumed {mdt : Nat} {p : Progress World}
    (checked : starts mdt ≠ 0 → Checked (p.world.logs mdt) (starts mdt))
    (inherited : p.reached mdt = starts mdt)
    : let result := scanMdt site param env (.live plans) starts fssMultiMdt mdt p
      0 ≤ result.1
        → ∃ scan reached,
            scan.mdt = mdt
            ∧ Resumed (starts mdt) reached scan
            ∧ scan.after = result.2.world
            ∧ result.2.scans = p.scans ++ [scan]
            ∧ result.2.reached = Function.update p.reached mdt reached := by
  obtain ⟨records, reading, received⟩ :=
    recv_received plans mdt (param.startrec (starts mdt)) p.world
  have increasing : ((LogSource.live plans).recv mdt (param.startrec (starts mdt))
      p.world).1.log.Pairwise (·.crIndex < ·.crIndex) := by
    rw [reading]
    exact (received.increasing.imp UInt64.lt_iff_toNat_lt.mpr).sublist (reading_sublist _ _)
  intro result ok
  obtain ⟨ok, ended, left, sent, seen, reaches, covers⟩ :=
    scanMdt_covers site param env (.live plans) starts fssMultiMdt mdt p
      (reaches_kept _ param env fssMultiMdt (starts mdt))
      ⟨by rw [inherited]; exact UInt64.le_refl _, by simp, .inl inherited⟩ increasing ok
  have whole : ((LogSource.live plans).recv mdt (param.startrec (starts mdt)) p.world).1.log
      = records := by
    rw [reading] at ended ⊢
    exact reading_log ended
  rw [whole] at covers left increasing
  change result.2 = _ at left
  change Reaches _ _ result.2.st at reaches
  generalize result.2.st = st at reaches left
  refine
    ⟨
      {
        mdt
        startrec := param.startrec (starts mdt)
        read := records
        after := ((LogSource.live plans).recv mdt (param.startrec (starts mdt)) p.world).2
      },
      st.fssReached, rfl, ?_, by rw [left], by rw [left], by rw [left]⟩
  have onwards {r : ChangelogRec}
      (logged : r ∈ (((LogSource.live plans).recv mdt (param.startrec (starts mdt))
        p.world).2.logs mdt).history)
      : (param.startrec (starts mdt)).toNat ≤ recordIndex r ↔ starts mdt < r.crIndex :=
    startrec_le_iff given unanchored checked (Journal.positive _ r logged)
  have moved := reaches.reached_read covers increasing
  refine ⟨eq_zero_of_startrec given unanchored checked, reaches.forward, fun r member => ?_,
    fun r => reaches.upto_read covers increasing, moved, received.logged,
    fun r here past reached => ?_, fun anchored => ?_⟩
  · exact (onwards (received.logged r member)).mp (received.onwards r member)
  · rcases moved with unmoved | ⟨x, member, same⟩
    · rw [unmoved] at reached
      exact absurd past (UInt64.not_lt.mpr reached)
    · refine received.complete r here ((onwards (current_subset here)).mpr past) x member ?_
      exact UInt64.le_iff_toNat_le.mp (same ▸ reached)
  · exact ((checked anchored).evolves (received.evolves mdt)).intact

end Scan

-----------------------------------------------------------------------------------------
-- All MDTs
-----------------------------------------------------------------------------------------

/-- Where the loop has got to since `p`: one scan for each MDT, which took its anchor with it.
-/
structure Resumption (starts : Anchors) (mdts : List Nat) (p q : Progress World) : Prop where
  scans
    : ∃ new, q.scans = p.scans ++ new
        ∧ new.map (·.mdt) = mdts
        ∧ ∀ scan ∈ new,
            Resumed (starts scan.mdt) (q.reached scan.mdt) scan ∧ scan.after.Later q.world
  others : ∀ mdt ∉ mdts, q.reached mdt = p.reached mdt

section Loop

variable (site : Site) (param : FindParam) (env : SinceEnv) (plans : Nat → ReadPlan)
  (starts : Anchors) (fssMultiMdt : Bool) {cookie : Bytes}
  (given : param.fpSinceCookie = some cookie) (unanchored : param.fpSince = .none)

theorem recheck_later (later : Bool) (mdt : Nat) (w : World)
    : w.Later (recheck site param (.live plans) starts later mdt w).2 := by
  have first := findClFirst_later site plans mdt 0 w
  unfold recheck
  dsimp only
  split
  · split
    · exact first
    split
    · exact first
    · exact first
  · exact .refl w

theorem mdtLoop_later (mdts : List Nat) (later : Bool) (rc : Int) (p : Progress World)
    : p.world.Later
        (mdtLoop site param env (.live plans) starts fssMultiMdt mdts later rc p).2.world := by
  induction mdts generalizing later rc p with
  | nil => exact .refl _
  | cons mdt rest ih =>
      have again := recheck_later site param plans starts later mdt p.world
      unfold mdtLoop
      dsimp only
      split
      · exact again
      have scanned := again.trans (scanMdt_later site param env plans starts fssMultiMdt mdt
        { p with world := (recheck site param (.live plans) starts later mdt p.world).2 })
      split
      · exact scanned
      · exact scanned.trans (ih _ _ _)

include given

/-- Before an MDT is read its purge test has passed: this time, or in the check of all. -/
theorem recheck_checked {later : Bool} {mdt : Nat} {w : World}
    (first : later = false → starts mdt ≠ 0 → Checked (w.logs mdt) (starts mdt))
    (logged : starts mdt ≠ 0 → ∃ r, r ∈ (w.logs mdt).history)
    : let result := recheck site param (.live plans) starts later mdt w
      ¬result.1 < 0 → starts mdt ≠ 0 → Checked (result.2.logs mdt) (starts mdt) := by
  unfold recheck
  simp only [given, Option.isSome_some, Bool.and_true, Bool.and_eq_true, bne_iff_ne]
  split
  · rename_i checks
    obtain ⟨r, logged⟩ := logged checks.2
    have checked := findClFirst_checked site plans (starts mdt) logged
    dsimp only at checked
    split
    · exact fun ok => absurd ‹_› ok
    rename_i ok
    split
    · exact fun ok => absurd (show -estale < 0 by decide) ok
    · rename_i near
      exact fun _ _ => (checked ok near).2
  · rename_i unchecked
    intro _ anchored
    refine first ?_ anchored
    rw [not_and_or] at unchecked
    exact Bool.eq_false_iff.mpr (unchecked.resolve_right (not_not_intro anchored))

include unanchored

theorem mdtLoop_resumed (mdts : List Nat) (distinct : mdts.Nodup) (later : Bool) (rc : Int)
    (p : Progress World)
    (first : later = false → ∀ mdt ∈ mdts.head?, starts mdt ≠ 0
      → Checked (p.world.logs mdt) (starts mdt))
    (logged : ∀ mdt ∈ mdts, starts mdt ≠ 0 → ∃ r, r ∈ (p.world.logs mdt).history)
    (inherited : ∀ mdt ∈ mdts, p.reached mdt = starts mdt)
    : let result := mdtLoop site param env (.live plans) starts fssMultiMdt mdts later rc p
      0 ≤ result.1 → Resumption starts mdts p result.2 := by
  induction mdts generalizing later rc p with
  | nil =>
      intro _ _
      exact ⟨⟨[], (List.append_nil _).symm, rfl, by simp⟩, fun _ _ => rfl⟩
  | cons mdt rest ih =>
      obtain ⟨differs, apart⟩ := List.nodup_cons.mp distinct
      have again := recheck_later site param plans starts later mdt p.world
      have checked := recheck_checked site param plans starts given
        (fun early => first early mdt rfl) (logged mdt List.mem_cons_self)
      unfold mdtLoop
      dsimp only at checked ⊢
      split
      · exact fun ok => absurd ok (Int.not_le.mpr ‹_›)
      rename_i passed
      generalize recheck site param (.live plans) starts later mdt p.world = result
        at again checked passed ⊢
      have scanned := scanMdt_resumed site param env plans starts fssMultiMdt given unanchored
        (p := { p with world := result.2 }) (checked passed) (inherited mdt List.mem_cons_self)
      have onwards := scanMdt_later site param env plans starts fssMultiMdt mdt
        { p with world := result.2 }
      dsimp only at scanned onwards
      generalize scanMdt site param env (.live plans) starts fssMultiMdt mdt
        { p with world := result.2 } = next at scanned onwards ⊢
      split
      · exact fun ok => absurd ok (Int.not_le.mpr ‹_›)
      rename_i ok
      obtain ⟨scan, reached, rfl, resumed, world, scans, moved⟩ := scanned (Int.not_lt.mp ok)
      have loop := mdtLoop_later site param env plans starts fssMultiMdt rest true next.1 next.2
      have later := again.trans onwards
      intro done
      obtain ⟨⟨new, more, covered, each⟩, others⟩ := ih apart true next.1 next.2
        (fun early => by cases early)
        (fun other member anchored =>
          (logged other (List.mem_cons_of_mem _ member) anchored).imp fun r there =>
            (later other).history.subset there)
        (fun other member => by
          rw [moved, Function.update_of_ne (ne_of_mem_of_not_mem member differs)]
          exact inherited other (List.mem_cons_of_mem _ member)) done
      refine ⟨⟨scan :: new, ?_, congrArg (scan.mdt :: ·) covered, ?_⟩, ?_⟩
      · rw [more, scans, List.append_assoc]
        rfl
      · intro one member
        rcases List.mem_cons.mp member with rfl | member
        · rw [others one.mdt differs, moved, Function.update_self, world]
          exact ⟨resumed, loop⟩
        · exact each one member
      · intro other missing
        rw [List.mem_cons, not_or] at missing
        rw [others other missing.2, moved, Function.update_of_ne missing.1]

end Loop

end LfuScan.Find
