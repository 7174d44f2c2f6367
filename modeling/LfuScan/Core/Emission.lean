import LfuScan.Core.Pool

/-! What the pipeline emits of an object, as a function of its class and its verdict. -/

namespace LfuScan.Core

open LfuScan.Lustre LfuScan.Filter

/-- The records counted as emitted since `before`, and the `+unknown` tags of those that
were printed; the diagnostic lines of the verbose mode are not records.
-/
def emission (before : LfuCtx) (after : LfuCtx × List Line) : UInt64 × List Bool :=
  (after.1.st.emitted - before.st.emitted,
    (after.2.filter (·.diagnostic.isNone)).map (·.unknown))

/-- One record, with its tag. -/
def tagged (o : LfuOpts) (unknown : Bool) : UInt64 × List Bool :=
  (1, if !o.quiet && !o.verbose then [unknown] else [])

/-- What is emitted for a verdict. -/
def verdictEmission (o : LfuOpts) (emitUnknown : Bool) : LfuMatch → UInt64 × List Bool
  | .noMatch => (0, [])
  | .matched => tagged o false
  | .unknown => if emitUnknown then tagged o true else (0, [])

variable {env : Platform} {cx : LfuCtx} {rec : LfuRec} {eas : Option LfuEas}

theorem emission_congr {before : LfuCtx} (same : cx.st.emitted = before.st.emitted)
    (after : LfuCtx × List Line)
    : emission cx after = emission before after := by
  simp only [emission, same]

theorem emission_none {after : LfuCtx} (same : after.st.emitted = cx.st.emitted)
    : emission cx (after, []) = (0, []) := by
  simp [emission, same]

theorem emitObject_emission {before : LfuCtx} (same : cx.st.emitted = before.st.emitted)
    (m : LfuMatch)
    : emission before (emitObject cx rec m) = tagged cx.o (m == .unknown) := by
  have one : before.st.emitted + 1 - before.st.emitted = 1 := by
    rw [UInt64.add_comm, UInt64.add_sub_cancel]
  have counted : (emitObject cx rec m).1.st.emitted = before.st.emitted + 1 := by
    simp only [emitObject]
    split <;> rw [← same]
  simp only [emission, counted, one, tagged]
  congr 1
  simp only [emitObject]
  split
  · rfl
  · rfl

theorem judgeObject_emission
    : emission cx (judgeObject env cx rec eas)
      = verdictEmission cx.o (cx.ops.pushdown || cx.o.emitUnknown)
          (objectVerdict env cx rec eas) := by
  unfold judgeObject
  cases objectVerdict env cx rec eas with
  | noMatch => exact emission_none rfl
  | matched => exact emitObject_emission rfl _
  | unknown =>
      simp only [verdictEmission]
      cases cx.ops.pushdown with
      | true => exact emitObject_emission rfl _
      | false =>
          cases cx.o.emitUnknown with
          | true => exact emitObject_emission rfl _
          | false => exact emission_none rfl

theorem showObject_emission (c : LfuClass)
    : emission cx (showObject env cx c rec eas)
      = if hiddenClass cx.o c then
          (0, [])
        else
          verdictEmission cx.o (cx.ops.pushdown || cx.o.emitUnknown)
            (objectVerdict env cx rec eas) := by
  have marked
      : (if cx.o.verbose && !cx.o.quiet then [lfuEmit cx (some c) rec false] else []).filter
          (·.diagnostic.isNone)
        = [] := by
    split <;> rfl
  simp only [showObject]
  split
  · simp only [emission, marked, List.map_nil, UInt64.sub_self]
  · rw [← judgeObject_emission]
    simp only [emission, List.filter_append, marked, List.nil_append]

theorem decodeObject_fixed (cx : LfuCtx) (rec : LfuRec) (eas : Option LfuEas)
    : (decodeObject cx rec eas).1.st.emitted = cx.st.emitted
      ∧ (decodeObject cx rec eas).1.base = cx.base := by
  obtain ⟨reads, state⟩ := decodeObject_state cx rec eas
  rw [state]
  exact ⟨rfl, rfl⟩

/-- An object of a class that is shown is emitted as its verdict says. -/
theorem lfuObject_emission (haveLma : Bool)
    : emission cx (lfuObject env cx rec haveLma eas)
      = if hiddenClass cx.o (lfuClassify rec haveLma) then
          (0, [])
        else
          verdictEmission cx.o (cx.ops.pushdown || cx.o.emitUnknown)
            (objectVerdict env cx (decodeObject cx rec eas).2 eas) := by
  have fixed := decodeObject_fixed (countClass cx (lfuClassify rec haveLma)) rec eas
  have record := decodeObject_rec (countClass cx (lfuClassify rec haveLma)) rec eas
  have plain := decodeObject_rec cx rec eas
  simp only [lfuObject]
  generalize decodeObject (countClass cx (lfuClassify rec haveLma)) rec eas = decoded
    at fixed record ⊢
  obtain ⟨after, decodedRec⟩ := decoded
  obtain ⟨emitted, base⟩ := fixed
  have o : after.o = cx.o := (congrArg LfuCtx.o base :)
  have ops : after.ops = cx.ops := (congrArg LfuCtx.ops base :)
  have needs : after.needs = cx.needs := (congrArg LfuCtx.needs base :)
  have same : decodedRec = (decodeObject cx rec eas).2 := record.trans plain.symm
  have shown : emission after (showObject env after (lfuClassify rec haveLma) decodedRec eas)
      = _ :=
    showObject_emission _
  have counted : after.st.emitted = cx.st.emitted := emitted
  simp only [emission, counted] at shown ⊢
  rw [shown, same]
  simp only [objectVerdict, o, ops, needs]

/-- The verdict of the whole pipeline. -/
def pipelineVerdict (env : Platform) (cx : LfuCtx) (rec : LfuRec) (eas : Option LfuEas)
    : LfuMatch :=
  if (lfuPrefilter cx rec).1 then
    objectVerdict env cx (decodeObject cx rec eas).2 eas
  else
    .noMatch

theorem visitObject_emission (haveLma : Bool)
    : emission cx (visitObject env cx rec haveLma eas)
      = if hiddenClass cx.o (lfuClassify rec haveLma) then
          (0, [])
        else
          verdictEmission cx.o (cx.ops.pushdown || cx.o.emitUnknown)
            (pipelineVerdict env cx rec eas) := by
  have state := lfuPrefilter_state cx rec
  cases survives : (lfuPrefilter cx rec).1 with
  | true =>
      have kept : (lfuPrefilter cx rec).2 = cx := by simpa [survives] using state
      simp only [visitObject, pipelineVerdict, survives, kept, if_true]
      exact lfuObject_emission haveLma
  | false =>
      have silent : emission cx ((lfuPrefilter cx rec).2, []) = (0, []) := by
        refine emission_none ?_
        rw [state, survives]
        rfl
      simp only [visitObject, pipelineVerdict, survives, Bool.false_eq_true, if_false, silent,
        verdictEmission, ite_self]

end LfuScan.Core
