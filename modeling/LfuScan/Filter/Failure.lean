import LfuScan.Filter.Compiled

/-! What a failed option leaves behind. Most options read their argument before they take a
predicate, and leave the filter as it was. Three take the predicate first; giving it back
restores the count, but not the negation it took nor the demands it added.
-/

namespace LfuScan.Filter

open LfuScan.Lustre LfuScan.Foundations

variable {ns : NameService} {f : LfuFilter} {result : OptResult}

/-- Everything of a filter that its users read is as before. -/
structure Untouched (f next : LfuFilter) : Prop where
  n : next.n = f.n
  needs : next.needs = f.needs
  negPending : next.negPending = f.negPending
  preds : next.preds = f.preds

/-- A predicate on `fld` was taken and given back. -/
structure GivenBack (f : LfuFilter) (fld : LfuField) (next : LfuFilter) : Prop where
  room : f.n ≠ lfuMaxPred
  n : next.n = f.n
  needs : next.needs = f.needs ||| lfuFieldNeeds fld.code
  negPending : next.negPending = 0
  preds : next.preds = f.preds

theorem lfuPredNew_none {fld : LfuField} (full : lfuPredNew f fld = none)
    : f.n = lfuMaxPred := by
  unfold lfuPredNew at full
  split at full
  · rename_i most
    exact beq_iff_eq.mp most
  · cases full

/-- What is written to a slot that is then given back is out of sight. -/
theorem lfuPredNew_givenBack {fld : LfuField} {taken : LfuFilter} {fresh : LfuPred}
    (new : lfuPredNew f fld = some (taken, fresh)) (p : LfuPred)
    : GivenBack f fld { taken.store p with n := taken.n - 1 } := by
  obtain ⟨room, _, array, count, negPending, needs⟩ := lfuPredNew_some new
  have back : taken.n - 1 = f.n := by omega
  refine ⟨room, back, needs, negPending, ?_⟩
  simp only [LfuFilter.preds, LfuFilter.store, array, back, Vector.toList_setIfInBounds]
  rw [List.take_set_of_le (Nat.le_refl _), List.take_set_of_le (Nat.le_refl _)]

theorem pushPred_failed {fld : LfuField} {op : LfuOp} {val val2 : UInt64}
    (failed : (pushPred f fld op val val2).rc ≠ 0)
    : (pushPred f fld op val val2).filter = f := by
  unfold pushPred at failed ⊢
  split at failed
  · rfl
  · exact absurd rfl failed

theorem compileTime_failed {fld : LfuField} {arg : Bytes}
    (failed : (compileTime f fld arg).rc ≠ 0)
    : (compileTime f fld arg).filter = f := by
  unfold compileTime at failed ⊢
  cases parsed : lfuParseTime (lfuParseSign arg).2 with
  | none =>
      simp only [parsed]
      rfl
  | some value =>
      simp only [parsed] at failed ⊢
      exact pushPred_failed failed

theorem compileCount_failed {fld : LfuField} {arg : Bytes}
    (failed : (compileCount f fld arg).rc ≠ 0)
    : (compileCount f fld arg).filter = f := by
  unfold compileCount at failed ⊢
  cases parsed : lfuParseU64 (lfuParseSign arg).2 with
  | none =>
      simp only [parsed]
      rfl
  | some value =>
      simp only [parsed] at failed ⊢
      exact pushPred_failed failed

theorem compileSize_failed {fld : LfuField} {arg : Bytes}
    (ran : compileSize f fld arg = some result) (failed : result.rc ≠ 0)
    : result.filter = f := by
  unfold compileSize at ran
  simp only at ran
  split at ran
  · cases ran
  · cases ran
    rfl
  · cases ran
    exact pushPred_failed failed

theorem compileId_failed {fld : LfuField} {id : Option UInt64} {arg : Bytes}
    (failed : (compileId f fld id arg).rc ≠ 0)
    : (compileId f fld id arg).filter = f := by
  cases id with
  | none => rfl
  | some v => exact pushPred_failed failed

theorem compileValue_failed {fld : LfuField} {op : LfuOp} {label : String}
    {value : Option UInt64} {arg : Bytes}
    (failed : (compileValue f fld op label value arg).rc ≠ 0)
    : (compileValue f fld op label value arg).filter = f := by
  cases value with
  | none => rfl
  | some v => exact pushPred_failed failed

/-- The field of an option that takes its predicate before it reads its argument. -/
def LfuOpt.takesFirst? : LfuOpt → Option LfuField
  | .ost => some .ost
  | .pool => some .pool
  | .name => some .name
  | _ => none

theorem compileOst_failed {arg : Bytes} (failed : (compileOst f arg).rc ≠ 0)
    : f.n = lfuMaxPred ∧ (compileOst f arg).filter = f
      ∨ GivenBack f .ost (compileOst f arg).filter := by
  unfold compileOst at failed ⊢
  cases new : lfuPredNew f .ost with
  | none => exact .inl ⟨lfuPredNew_none new, rfl⟩
  | some both =>
      obtain ⟨taken, fresh⟩ := both
      simp only [new] at failed ⊢
      split at failed
      · exact absurd rfl failed
      · rename_i unparsed
        rw [if_neg unparsed]
        exact .inr (lfuPredNew_givenBack new _)

theorem compilePattern_failed {fld : LfuField} {arg : Bytes}
    (failed : (compilePattern f fld arg).rc ≠ 0)
    : f.n = lfuMaxPred ∧ (compilePattern f fld arg).filter = f
      ∨ GivenBack f fld (compilePattern f fld arg).filter := by
  unfold compilePattern at failed ⊢
  cases new : lfuPredNew f fld with
  | none => exact .inl ⟨lfuPredNew_none new, rfl⟩
  | some both =>
      obtain ⟨taken, fresh⟩ := both
      simp only [new] at failed ⊢
      split at failed
      · rename_i long
        rw [if_pos long]
        exact .inr (lfuPredNew_givenBack new _)
      · exact absurd rfl failed

/-- The two ways to fail. -/
theorem lfuFilterOpt_failed {opt : LfuOpt} {arg : Bytes}
    (ran : lfuFilterOpt ns f opt arg = some result) (failed : result.rc ≠ 0)
    : (∀ fld, opt.takesFirst? = some fld → f.n = lfuMaxPred) ∧ result.filter = f
      ∨ ∃ fld, opt.takesFirst? = some fld ∧ GivenBack f fld result.filter := by
  have first {fld : LfuField} (takes : opt.takesFirst? = some fld)
      (left : f.n = lfuMaxPred ∧ result.filter = f ∨ GivenBack f fld result.filter)
      : (∀ fld, opt.takesFirst? = some fld → f.n = lfuMaxPred) ∧ result.filter = f
        ∨ ∃ fld, opt.takesFirst? = some fld ∧ GivenBack f fld result.filter :=
    left.imp (fun full => ⟨fun _ _ => full.1, full.2⟩) fun back => ⟨fld, takes, back⟩
  unfold lfuFilterOpt at ran
  cases opt with
  | not =>
      cases ran
      exact absurd rfl failed
  | atime | mtime | ctime | btime =>
      cases ran
      exact .inl ⟨nofun, compileTime_failed failed⟩
  | links | stripeCount | mirrorCount | compCount | mdtCount =>
      cases ran
      exact .inl ⟨nofun, compileCount_failed failed⟩
  | size | blocks | devBlocks | stripeSize =>
      exact .inl ⟨nofun, compileSize_failed ran failed⟩
  | uid | gid | projid =>
      cases ran
      exact .inl ⟨nofun, compileId_failed failed⟩
  | type | layout | mdtHash =>
      cases ran
      exact .inl ⟨nofun, compileValue_failed failed⟩
  | perm | attrs =>
      simp only at ran
      split at ran
      · cases ran
        exact .inl ⟨nofun, rfl⟩
      · cases ran
        exact .inl ⟨nofun, pushPred_failed failed⟩
  | ost =>
      cases ran
      exact first rfl (compileOst_failed failed)
  | pool | name =>
      cases ran
      exact first rfl (compilePattern_failed failed)
  | other =>
      cases ran
      exact .inl ⟨nofun, rfl⟩

/-- A failed option never changes the predicates. It leaves the filter untouched unless it is
one of the three, finds room, and there was a negation to lose or a demand to add.
-/
theorem failed_option_untouched_iff (ns : NameService) (f : LfuFilter) (opt : LfuOpt)
    (arg : Bytes) (result : OptResult) (ran : lfuFilterOpt ns f opt arg = some result)
    (failed : result.rc = -1 ∨ result.rc = -2)
    : result.filter.n = f.n
      ∧ result.filter.preds = f.preds
      ∧ (Untouched f result.filter
          ↔ ∀ fld, opt.takesFirst? = some fld → f.n ≠ lfuMaxPred
              → f.negPending = 0 ∧ f.needs ||| lfuFieldNeeds fld.code = f.needs) := by
  have nonzero : result.rc ≠ 0 := by omega
  rcases lfuFilterOpt_failed ran nonzero with ⟨full, same⟩ | ⟨fld, takes, back⟩
  · rw [same]
    exact ⟨rfl, rfl, fun _ fld takes room => absurd (full fld takes) room,
      fun _ => ⟨rfl, rfl, rfl, rfl⟩⟩
  · refine ⟨back.n, back.preds, fun untouched other takes' _ => ?_, fun harmless => ?_⟩
    · cases takes.symm.trans takes'
      exact ⟨untouched.negPending.symm.trans back.negPending, back.needs.symm.trans untouched.needs⟩
    · obtain ⟨positive, known⟩ := harmless fld takes back.room
      exact ⟨back.n, back.needs.trans known, back.negPending.trans positive.symm, back.preds⟩

/-- `! --type q` can be asked again. -/
theorem failed_option_untouched_type
    : ∃ result,
        lfuFilterOpt noNames { negPending := 1 } .type (cstr "q") = some result
        ∧ Untouched { negPending := 1 } result.filter := by
  have unknown : lfuFilterOpt noNames { negPending := 1 } .type (cstr "q")
      = some (lfuBad { negPending := 1 } "type" (cstr "q") []) := by
    decide
  exact ⟨_, unknown,
    (failed_option_untouched_iff _ _ _ _ _ unknown (.inr rfl)).2.2.mpr nofun⟩

/-- After `! --ost x` the negation is gone, and layouts are demanded. -/
theorem failed_ost_forgets_negation
    : ∃ result,
        lfuFilterOpt noNames { negPending := 1 } .ost (cstr "x") = some result
        ∧ result.rc = -2
        ∧ result.filter.negPending = 0 ∧ result.filter.needs = XattrName.lov.need
        ∧ ¬ Untouched { negPending := 1 } result.filter := by
  refine ⟨_, rfl, by decide, by decide, by decide, fun untouched => ?_⟩
  exact absurd untouched.negPending (by decide)

end LfuScan.Filter
