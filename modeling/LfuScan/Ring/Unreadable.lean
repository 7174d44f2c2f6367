import LfuScan.Filter.Compiled
import LfuScan.Ring.Answer

/-! What an attribute that cannot be read does to the verdict. One that does not fit leaves
the object undecided; one that fails in another way is taken to be absent.
-/

namespace LfuScan.Ring

open LfuScan.Lustre LfuScan.Filter LfuScan.Foundations

/-- The attribute exists or may exist, but its read failed. -/
def ReadFailed (reply : XattrName → XaReply) (name : XattrName) : Prop :=
  ∃ rc, reply name = .error rc ∧ rc ≠ -enodata

/-- The attributes as the replies show them, absent where a read failed. -/
def readEas (reply : XattrName → XaReply) : LfuEas :=
  {
    som := (reply .som).ea
    lov := (reply .lov).ea
    lmv := (reply .lmv).ea
    link := (reply .link).ea
  }

/-- What the object may really hold: what was read, and anything where a read failed. -/
def Possible (reply : XattrName → XaReply) (eas : LfuEas) : Prop :=
  ∀ name, ¬ ReadFailed reply name → eas.get name = (reply name).ea

variable {ns : NameService} {env : Platform} {r : LfuRing} {rf : LfuRingFilter}
  {reply : XattrName → XaReply} {rec : LfuRec} {now : Int}

theorem readEas_get (reply : XattrName → XaReply) (name : XattrName)
    : (readEas reply).get name = (reply name).ea := by
  cases name <;> rfl

/-- The verdict under a compiled filter, whatever reads fail: tier 0 decides first, then an
attribute that did not fit, and otherwise the filter with failed reads taken as absent.
-/
theorem compiled_verdict (compiled : Compiled ns rf.rfFilter)
    (installed : r.filter = some rf) (supported : Supported rf.rfFilter.needs reply)
    : (lfuFilterObject env r reply rec now).verdict
      = .ok (
        if lfuFilterTier0 rf.rfFilter rec now = false then
          .noMatch
        else if tooLarge rf.rfFilter.needs reply then
          .unknown
        else
          .ofKleene (filterAnswer env rf.rfFilter rec now (readEas reply))) := by
  have cover := compiled.needsCover
  have verdict : (lfuFilterObject env r reply rec now).verdict = _ :=
    (lfuFilterObject_verdict installed supported).1
  rw [verdict, filterAnswer_split]
  cases lfuFilterTier0 rf.rfFilter rec now with
  | false => rfl
  | true =>
      have same : tier1Answer env rf.rfFilter rec now (replyEas rf.rfFilter.needs reply)
          = tier1Answer env rf.rfFilter rec now (readEas reply) :=
        tier1Answer_replyEas cover fun name => (readEas_get reply name).symm
      by_cases nothing : rf.rfFilter.needs = 0
      · have fits : tooLarge 0 reply = false := by
          unfold tooLarge
          rw [List.any_eq_false]
          intro name _
          cases name <;> simp [needsHas]
        simp [nothing, fits, tier1Answer_of_needs_zero cover nothing, Kleene.ofBool,
          LfuMatch.ofKleene]
      · simp [nothing, same, Kleene.ofBool]

/-- A predicate that depends on no failed read says the same of everything the object may
hold.
-/
theorem predAnswer_of_readable {eas : LfuEas} {p : LfuPred} (possible : Possible reply eas)
    (readable : ∀ name, demands p name = true → ¬ ReadFailed reply name)
    : predAnswer env rec now (readEas reply) p = predAnswer env rec now eas p := by
  apply predAnswer_congr
  intro name demanded
  rw [readEas_get, possible name (readable name demanded)]

/-- How unreadable attributes enter the verdict. Tier 0 decides before any read; an
attribute that did not fit leaves the rest undecided, so a definite verdict is then the
same for all the object may hold; any other failed read counts as absent, and a predicate
that needs no failed read and is false still rejects the object.
-/
theorem unreadable_verdict (compiled : Compiled ns rf.rfFilter)
    (installed : r.filter = some rf) (supported : Supported rf.rfFilter.needs reply)
    : (lfuFilterObject env r reply rec now).verdict
        = .ok (
          if lfuFilterTier0 rf.rfFilter rec now = false then
            .noMatch
          else if tooLarge rf.rfFilter.needs reply then
            .unknown
          else
            .ofKleene (filterAnswer env rf.rfFilter rec now (readEas reply)))
      ∧ (tooLarge rf.rfFilter.needs reply = true →
          ∀ m, (lfuFilterObject env r reply rec now).verdict = .ok m → m ≠ .unknown →
            ∀ eas, .ofKleene (filterAnswer env rf.rfFilter rec now eas) = m)
      ∧ (tooLarge rf.rfFilter.needs reply = false →
          ∀ eas, Possible reply eas → ∀ p ∈ rf.rfFilter.preds,
            (∀ name, demands p name = true → ¬ ReadFailed reply name) →
            predAnswer env rec now eas p = .no →
            (lfuFilterObject env r reply rec now).verdict = .ok .noMatch) := by
  have verdict : (lfuFilterObject env r reply rec now).verdict = _ :=
    compiled_verdict compiled installed supported
  refine ⟨verdict, ?_, ?_⟩
  · intro large m decided definite eas
    rw [verdict, Except.ok.injEq] at decided
    rw [filterAnswer_split]
    cases tier0 : lfuFilterTier0 rf.rfFilter rec now with
    | false =>
        rw [if_pos tier0] at decided
        exact decided
    | true =>
        rw [if_neg (by simp [tier0]), if_pos large] at decided
        exact absurd decided.symm definite
  · intro fits eas possible p used readable false_
    have rejected : filterAnswer env rf.rfFilter rec now (readEas reply) = .no := by
      rw [filterAnswer, Kleene.all_eq_no_iff]
      refine List.mem_map.mpr ⟨p, used, ?_⟩
      rw [predAnswer_of_readable possible readable, false_]
    rw [verdict, rejected, fits]
    split <;> rfl

/-- The filter of `--size +1M`. -/
def largeFileFilter : LfuFilter :=
  match lfuFilterOpt noNames {} .size (cstr "+1M") with
  | some result => result.filter
  | none => {}

theorem largeFileFilter_compiled : Compiled noNames largeFileFilter := by
  have ran : (lfuFilterOpt noNames {} .size (cstr "+1M")).any (·.rc == 0) = true := by
    decide
  unfold largeFileFilter
  cases run : lfuFilterOpt noNames {} .size (cstr "+1M") with
  | none => simp [run] at ran
  | some result =>
      rw [run, Option.any_some, beq_iff_eq] at ran
      exact .opt .empty .size _ run ran

def largeFilePayload : LfuRingFilter :=
  { stripeCountPayload with rfFilter := largeFileFilter }

/-- One stripe on one OST. -/
def oneStripe : Bytes :=
  [0xD0, 0x0B, 0xD1, 0x0B, 1, 0, 0, 0] ++ List.replicate 16 0
    ++ [0, 0, 0x10, 0, 1, 0, 0, 0] ++ List.replicate 24 0

/-- A strict size of two MiB. -/
def twoMegabytes : Bytes :=
  [1, 0, 0, 0, 0, 0, 0, 0] ++ [0, 0, 0x20, 0, 0, 0, 0, 0] ++ [0, 0x10, 0, 0, 0, 0, 0, 0]

/-- The layout's block does not read; the size attribute does. -/
def layoutUnreadable : XattrName → XaReply
  | .som => .value twoMegabytes false
  | .lov => .error (-eio)
  | _ => .error (-enodata)

/-- What the file really holds. -/
def stripedFile : LfuEas := { som := some twoMegabytes, lov := some oneStripe }

theorem layoutUnreadable_supported
    : Supported largeFilePayload.rfFilter.needs layoutUnreadable := by
  intro name _
  cases name <;> decide

/-- The device with the filter installed. -/
def filteredRing : LfuRing := { ldiskfsDevice.toLfuRing with filter := some largeFilePayload }

/-- The file is two MiB and passes the filter, but with its layout unreadable it counts as
unstriped, its inode size of zero is judged, and it is rejected outright.
-/
theorem unreadable_layout_rejects
    : Compiled noNames largeFilePayload.rfFilter
      ∧ Supported largeFilePayload.rfFilter.needs layoutUnreadable
      ∧ Possible layoutUnreadable stripedFile
      ∧ (lfuFilterObject exactNames filteredRing layoutUnreadable plainFile 0).verdict
        = .ok .noMatch
      ∧ filterAnswer exactNames largeFilePayload.rfFilter plainFile 0 stripedFile = .yes := by
  refine ⟨largeFileFilter_compiled, layoutUnreadable_supported, ?_, by decide, by decide⟩
  intro name readable
  cases name with
  | som | lmv | link => rfl
  | lov => exact absurd ⟨-eio, rfl, by decide⟩ readable

/-- The same file under the theorem: the failed layout counts as absent. -/
theorem unreadable_verdict_layout
    : (lfuFilterObject exactNames filteredRing layoutUnreadable plainFile 0).verdict
      = .ok (.ofKleene (filterAnswer exactNames largeFilePayload.rfFilter plainFile 0
          (readEas layoutUnreadable))) :=
  (unreadable_verdict largeFileFilter_compiled rfl layoutUnreadable_supported).1.trans
    (by decide)

end LfuScan.Ring
