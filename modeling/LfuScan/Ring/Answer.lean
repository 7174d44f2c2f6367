import LfuScan.Filter.Verdict
import LfuScan.Ring.Control

/-! The kernel's verdict on an object, in terms of what the filter means: which attributes
are read, what stands in for one that could not be, and when the answer is the filter's.
-/

namespace LfuScan.Ring

open LfuScan.Lustre LfuScan.Filter LfuScan.Foundations

-----------------------------------------------------------------------------------------
-- Gathering the demanded attributes
-----------------------------------------------------------------------------------------

def XattrName.everyName : List XattrName := [.som, .lov, .lmv, .link]

/-- The value the evaluator is given for a reply: an error of any kind counts as absent. -/
def XaReply.ea : XaReply → LfuEa
  | .value bytes _ => some bytes
  | .error _ => none

/-- The iterator serves every demanded attribute in one way or another. -/
def Supported (needs : UInt32) (reply : XattrName → XaReply) : Prop :=
  ∀ name, needsHas needs name = true → reply name ≠ .error (-eopnotsupp)

/-- Some demanded attribute did not fit its buffer. -/
def tooLarge (needs : UInt32) (reply : XattrName → XaReply) : Bool :=
  XattrName.everyName.any fun name =>
    needsHas needs name && reply name == .error (-erange)

/-- The attributes the evaluator sees: the demanded ones that were read. -/
def replyEas (needs : UInt32) (reply : XattrName → XaReply) : LfuEas :=
  {
    som := if needsHas needs .som then (reply .som).ea else none
    lov := if needsHas needs .lov then (reply .lov).ea else none
    lmv := if needsHas needs .lmv then (reply .lmv).ea else none
    link := if needsHas needs .link then (reply .link).ea else none
  }

theorem replyEas_get (needs : UInt32) (reply : XattrName → XaReply) (name : XattrName)
    : (replyEas needs reply).get name
      = if needsHas needs name then (reply name).ea else none := by
  cases name <;> rfl

theorem lfuXaGet_ea (st : LfuRingStats) (reply : XaReply)
    : (lfuXaGet st reply).ea = reply.ea := by
  unfold lfuXaGet
  cases reply with
  | value bytes external => rfl
  | error rc =>
      simp only
      repeat (split; rfl)
      rfl

theorem lfuXaGet_rc_supported {reply : XaReply} (st : LfuRingStats)
    (supported : reply ≠ .error (-eopnotsupp))
    : (lfuXaGet st reply).rc ≠ -eopnotsupp := by
  unfold lfuXaGet
  cases reply with
  | value bytes external => simp [eopnotsupp]
  | error rc =>
      have differs : rc ≠ -eopnotsupp := fun same => supported (by rw [same])
      have zero : (0 : Int) ≠ -eopnotsupp := by decide
      have large : -erange ≠ -eopnotsupp := by decide
      simp only
      split
      · exact zero
      · split
        · exact large
        · split
          · exact differs
          · exact zero

theorem lfuXaGet_rc_erange (st : LfuRingStats) (reply : XaReply)
    : ((lfuXaGet st reply).rc == -erange) = (reply == .error (-erange)) := by
  unfold lfuXaGet
  cases reply with
  | value bytes external => rfl
  | error rc =>
      simp only
      split
      · rename_i absent
        rw [beq_iff_eq.mp absent]
        rfl
      · split
        · rename_i large
          rw [beq_iff_eq.mp large]
          rfl
        · rename_i fits
          have other : (XaReply.error rc == .error (-erange)) = false := by
            simpa using fits
          rw [other]
          split
          · simpa using fits
          · rfl

theorem LfuEas.get_put (eas : LfuEas) (name other : XattrName) (ea : LfuEa)
    : (LfuEas.put eas name ea).get other = if other = name then ea else eas.get other := by
  cases name <;> cases other <;> rfl

/-- What has been gathered agrees with the replies on the names dealt with so far. -/
structure GatheredSoFar (needs : UInt32) (reply : XattrName → XaReply)
    (names : List XattrName) (g : Gathered)
    : Prop where
  eas : ∀ name,
    g.eas.get name
      = if name ∈ names ∧ needsHas needs name = true then (reply name).ea else none
  toolarge : g.toolarge
    = names.any fun name => needsHas needs name && reply name == .error (-erange)
  asked : g.asked = names.filter (needsHas needs)

theorem gatherOne_spec {needs : UInt32} {reply : XattrName → XaReply}
    {names : List XattrName} {g : Gathered} (name : XattrName)
    (supported : Supported needs reply) (before : GatheredSoFar needs reply names g)
    : ∃ next, gatherOne needs reply name g = .ok next
        ∧ GatheredSoFar needs reply (names ++ [name]) next := by
  cases demanded : needsHas needs name with
  | false =>
      refine ⟨g, by simp [gatherOne, demanded], ?_, ?_, ?_⟩
      · intro other
        rw [before.eas]
        by_cases same : other = name
        · simp [same, demanded]
        · simp [same]
      · simp [before.toolarge, demanded]
      · simp [before.asked, demanded]
  | true =>
      have served := lfuXaGet_rc_supported g.st (supported name demanded)
      refine ⟨g.add name (lfuXaGet g.st (reply name)), ?_, ?_, ?_, ?_⟩
      · simp [gatherOne, demanded, served]
      · intro other
        simp only [Gathered.add, LfuEas.get_put, lfuXaGet_ea]
        by_cases same : other = name
        · simp [same, demanded]
        · simp [same, before.eas]
      · simp [Gathered.add, before.toolarge, demanded, lfuXaGet_rc_erange]
      · simp [Gathered.add, before.asked, demanded]

theorem gather_spec {needs : UInt32} {reply : XattrName → XaReply} (st : LfuRingStats)
    (supported : Supported needs reply)
    : ∃ g, gather needs reply st = .ok g
        ∧ GatheredSoFar needs reply XattrName.everyName g := by
  have start : GatheredSoFar needs reply [] { st } :=
    ⟨fun name => by cases name <;> rfl, rfl, rfl⟩
  obtain ⟨som, ranSom, soFar⟩ := gatherOne_spec .som supported start
  obtain ⟨lov, ranLov, soFar⟩ := gatherOne_spec .lov supported soFar
  obtain ⟨lmv, ranLmv, soFar⟩ := gatherOne_spec .lmv supported soFar
  obtain ⟨link, ranLink, soFar⟩ := gatherOne_spec .link supported soFar
  refine ⟨link, ?_, soFar⟩
  simp only [gather, bind, Except.bind, ranSom, ranLov, ranLmv, ranLink]

variable {env : Platform} {r : LfuRing} {rf : LfuRingFilter} {reply : XattrName → XaReply}
  {rec : LfuRec} {now : Int}

/-- The filter does not look at the attributes already decoded into the record. -/
theorem tier1Answer_decoded (f : LfuFilter) (t1 : LfuTier1) (eas : LfuEas)
    : tier1Answer env f { rec with t1, t1Valid := true } now eas
      = tier1Answer env f rec now eas := rfl

theorem judgeGathered_verdict {f : LfuFilter} {g : Gathered} (now : Int)
    (soFar : GatheredSoFar f.needs reply XattrName.everyName g)
    : (judgeGathered env f rec g).verdict
        = .ok (if tooLarge f.needs reply then
            .unknown
          else
            .ofKleene (tier1Answer env f rec now (replyEas f.needs reply)))
      ∧ (judgeGathered env f rec g).asked = g.asked := by
  have same : ∀ name, g.attributes.get name = (replyEas f.needs reply).get name := by
    intro name
    have unmarked : g.attributes.get name = g.eas.get name := by cases name <;> rfl
    have every : name ∈ XattrName.everyName := by cases name <;> decide
    rw [unmarked, soFar.eas name, replyEas_get]
    simp [every]
  have answer : tier1Answer env f rec now g.attributes
      = tier1Answer env f rec now (replyEas f.needs reply) := by
    unfold tier1Answer
    congr 1
    exact List.map_congr_left fun p _ => predAnswer_congr fun name _ => same name
  rw [judgeGathered_eq]
  refine ⟨congrArg Except.ok ?_, rfl⟩
  unfold gatheredMatch Gathered.decode
  rw [soFar.toolarge, lfuFilterTier1_answer f now, tier1Answer_decoded, answer]
  rfl

/-- The verdict of `lfu_filter_object` when the iterator can serve what is demanded. -/
theorem lfuFilterObject_verdict (installed : r.filter = some rf)
    (supported : Supported rf.rfFilter.needs reply)
    : (lfuFilterObject env r reply rec now).verdict
        = .ok (
          if lfuFilterTier0 rf.rfFilter rec now = false then
            .noMatch
          else if rf.rfFilter.needs = 0 then
            .matched
          else if tooLarge rf.rfFilter.needs reply then
            .unknown
          else
            .ofKleene
              (tier1Answer env rf.rfFilter rec now (replyEas rf.rfFilter.needs reply)))
      ∧ (lfuFilterObject env r reply rec now).asked
        = if lfuFilterTier0 rf.rfFilter rec now = false then
            []
          else
            XattrName.everyName.filter (needsHas rf.rfFilter.needs) := by
  unfold lfuFilterObject
  rw [installed]
  cases tier0 : lfuFilterTier0 rf.rfFilter rec now with
  | false => simp [tier0]
  | true =>
      by_cases nothing : rf.rfFilter.needs = 0
      · have none_ : XattrName.everyName.filter (needsHas 0) = [] := by decide
        simp only [lfuFilterNeeds, nothing, none_]
        simp [tier0]
      · obtain ⟨g, ran, soFar⟩ := gather_spec r.st supported
        have judged : (judgeGathered env rf.rfFilter rec g).verdict = _ ∧ _ :=
          judgeGathered_verdict now soFar
        simp [tier0, lfuFilterNeeds, nothing, ran, judged.1, judged.2, soFar.asked]

-----------------------------------------------------------------------------------------
-- An accepted payload
-----------------------------------------------------------------------------------------

/-- The iterator serves the object's attributes without error. -/
def Served (reply : XattrName → XaReply) (eas : LfuEas) : Prop :=
  ∀ name,
    match eas.get name with
    | none => reply name = .error (-enodata)
    | some bytes => ∃ external, reply name = .value bytes external

variable {eas : LfuEas}

theorem Served.ea (served : Served reply eas) (name : XattrName)
    : (reply name).ea = eas.get name := by
  have answer := served name
  split at answer
  · rename_i absent
    rw [answer, absent]
    rfl
  · rename_i bytes present
    obtain ⟨external, value⟩ := answer
    rw [value, present]
    rfl

theorem Served.not_error (served : Served reply eas) (name : XattrName) {rc : Int}
    (other : rc ≠ -enodata)
    : reply name ≠ .error rc := by
  have answer := served name
  split at answer
  · intro failed
    rw [failed, XaReply.error.injEq] at answer
    exact other answer
  · obtain ⟨external, value⟩ := answer
    rw [value]
    nofun

theorem Served.supported (served : Served reply eas) (needs : UInt32)
    : Supported needs reply :=
  fun name _ => served.not_error name (by decide)

theorem Served.not_tooLarge (served : Served reply eas) (needs : UInt32)
    : tooLarge needs reply = false := by
  unfold tooLarge
  rw [List.any_eq_false]
  intro name _ large
  obtain ⟨_, failed⟩ := Bool.and_eq_true_iff.mp large
  exact served.not_error name (by decide) (beq_iff_eq.mp failed)

/-- With a covering mask the evaluator sees all it needs of the object. -/
theorem tier1Answer_replyEas {f : LfuFilter} (cover : NeedsCover f)
    (same : ∀ name, (reply name).ea = eas.get name)
    : tier1Answer env f rec now (replyEas f.needs reply)
      = tier1Answer env f rec now eas := by
  apply tier1Answer_congr cover
  intro name demanded
  rw [replyEas_get, if_pos demanded, same]

theorem lfuRingSetFilter_installed {mem : AllocReply}
    (accepted : (lfuRingSetFilter r (some rf) mem).1 = 0)
    : (lfuRingSetFilter r (some rf) mem).2.filter = some rf
      ∧ (lfuRingSetFilter r (some rf) mem).2.emitUnknown
        = (rf.rfFlags &&& lfuFilterEmitUnknown != 0) := by
  have outcome := lfuRingSetFilter_outcome r (some rf) mem
  generalize lfuRingSetFilter r (some rf) mem = result at outcome accepted ⊢
  cases outcome with
  | refused rc failed => exact absurd accepted failed
  | noMemory => exact absurd accepted (show -enomem ≠ 0 by decide)
  | plain _ sent | reused _ sent | allocated _ sent =>
      cases sent
      exact ⟨rfl, rfl⟩

/-- An accepted payload is answered in full on an object, none of its predicates judged on
an attribute that was not asked for, exactly when tier 0 already rejects the object or the
payload's own demand mask covers its predicates.
-/
theorem accepted_filter_answered_iff {mem : AllocReply}
    (accepted : (lfuRingSetFilter r (some rf) mem).1 = 0) (served : Served reply eas)
    : ((lfuFilterObject env (lfuRingSetFilter r (some rf) mem).2 reply rec now).verdict
          = .ok (.ofKleene (filterAnswer env rf.rfFilter rec now eas))
        ∧ (lfuFilterTier0 rf.rfFilter rec now = true →
            ∀ p ∈ rf.rfFilter.preds, ∀ name, demands p name = true →
              name ∈ (lfuFilterObject env (lfuRingSetFilter r (some rf) mem).2 reply rec
                now).asked))
      ↔ (lfuFilterTier0 rf.rfFilter rec now = false ∨ NeedsCover rf.rfFilter) := by
  have installed := (lfuRingSetFilter_installed accepted).1
  obtain ⟨verdict, asked⟩ :=
    lfuFilterObject_verdict installed (served.supported rf.rfFilter.needs)
  rw [verdict, asked, filterAnswer_split]
  cases tier0 : lfuFilterTier0 rf.rfFilter rec now with
  | false => simp [Kleene.ofBool, LfuMatch.ofKleene]
  | true =>
      simp only [Bool.true_eq_false, if_false, false_or, forall_const, Kleene.ofBool,
        Kleene.yes_and, served.not_tooLarge]
      constructor
      · rintro ⟨_, fetched⟩ p used name demanded
        exact (List.mem_filter.mp (fetched p used name demanded)).2
      · intro cover
        constructor
        · by_cases nothing : rf.rfFilter.needs = 0
          · rw [if_pos nothing, tier1Answer_of_needs_zero cover nothing]
            rfl
          · rw [if_neg nothing, tier1Answer_replyEas cover served.ea]
            rfl
        · intro p used name demanded
          have every : name ∈ XattrName.everyName := by cases name <;> decide
          exact List.mem_filter.mpr ⟨every, cover p used name demanded⟩

/-- A regular file with nothing but its inode. -/
def plainFile : LfuRec := { mode := lfuSIfreg, fid := { fSeq := 0x200000401, fOid := 1 } }

theorem noXattrs_served : Served noXattrs {} := by
  intro name
  cases name <;> rfl

/-- The stripe-count filter with its proper mask, on a file without a layout: the layout is
asked for and the file does not match.
-/
theorem accepted_filter_answered_stripeCount
    : (lfuRingSetFilter ldiskfsDevice.toLfuRing (some stripeCountPayload) allocAll).1 = 0
      ∧ (lfuFilterObject exactNames
          (lfuRingSetFilter ldiskfsDevice.toLfuRing (some stripeCountPayload) allocAll).2
          noXattrs plainFile 0).verdict
        = .ok (.ofKleene
            (filterAnswer exactNames stripeCountPayload.rfFilter plainFile 0 {})) := by
  have accepted
      : (lfuRingSetFilter ldiskfsDevice.toLfuRing (some stripeCountPayload) allocAll).1
        = 0 := by
    decide
  have cover : NeedsCover stripeCountPayload.rfFilter := by
    intro p used name demanded
    have only : p = { field := LfuField.stripeCount.code, op := LfuOp.gt.code, val := 4 } :=
      List.mem_singleton.mp used
    subst only
    cases name <;> first | rfl | cases demanded
  exact ⟨accepted, ((accepted_filter_answered_iff accepted noXattrs_served).mpr
    (.inr cover)).1⟩

/-- The same filter with an empty mask. -/
def unmaskedPayload : LfuRingFilter :=
  {
    stripeCountPayload with
    rfFilter := { stripeCountPayload.rfFilter with needs := 0 }
  }

/-- The payload passes every check, tier 1 is skipped for want of a demand, and a file
without any layout is reported as having more than four stripes.
-/
theorem accepted_filter_skips_tier1
    : (lfuRingSetFilter ldiskfsDevice.toLfuRing (some unmaskedPayload) allocAll).1 = 0
      ∧ Served noXattrs {}
      ∧ (lfuFilterObject exactNames
          (lfuRingSetFilter ldiskfsDevice.toLfuRing (some unmaskedPayload) allocAll).2
          noXattrs plainFile 0).verdict
        = .ok .matched
      ∧ filterAnswer exactNames unmaskedPayload.rfFilter plainFile 0 {} = .no :=
  ⟨by decide, noXattrs_served, by decide, by decide⟩

end LfuScan.Ring
