import LfuScan.Kmdt.RoundTrip

/-! The size on a printed line and the size the filter compared. Both the filter and the
printer choose between the numbers of the inode and those of SOM, each by a condition of its
own, so the two can part.
-/

namespace LfuScan.Kmdt

open LfuScan.Lustre LfuScan.Foundations LfuScan.Filter LfuScan.Ring LfuScan.Core

-----------------------------------------------------------------------------------------
-- The two choices
-----------------------------------------------------------------------------------------

/-- The file whose size only SOM or its OSTs know: regular, striped, and not released. -/
def sizedBySom (rec : LfuRec) : Bool :=
  rec.mode &&& lfuSIfmt == lfuSIfreg
    && !(rec.t1.haveLov && rec.t1.pattern &&& lovPatternFReleased != 0)
    && (rec.t1.haveLov && rec.t1.stripeCount > 0)

/-- The line shows the size, and in 512-byte units the blocks, that the filter compared. -/
structure PrintedAsJudged (judged : LfuRec) (line : Line) : Prop where
  size : lfuResolveSize judged judged.t1 false = some line.size
  blocks : lfuResolveSize judged judged.t1 true = some (line.blocks * 512)

/-- SOM is there only for a file that is judged by it, or says what the inode says. -/
def SizesAgree (rec : LfuRec) : Prop :=
  rec.t1.haveSom = true →
    sizedBySom rec = true
    ∨ (rec.t1.somSize = rec.size ∧ rec.t1.somBlocks * 512 = rec.blocks * 512)

/-- The numbers on the line satisfy every predicate on the size or the blocks. -/
def SatisfiesSizes (f : LfuFilter) (line : Line) : Prop :=
  ∀ p ∈ f.preds,
    (p.field = LfuField.size.code → negated p (lfuCmp p line.size) = true)
    ∧ (p.field = LfuField.blocks.code → negated p (lfuCmp p (line.blocks * 512)) = true)

/-- The filter's choice. -/
theorem lfuResolveSize_eq (rec : LfuRec) (wantBlocks : Bool)
    : lfuResolveSize rec rec.t1 wantBlocks
      = if sizedBySom rec then
          if rec.t1.haveSom && rec.t1.somValid &&& (somFlStrict ||| somFlLazy) != 0 then
            some (if wantBlocks then rec.t1.somBlocks * 512 else rec.t1.somSize)
          else
            none
        else
          some (if wantBlocks then rec.blocks * 512 else rec.size) := by
  unfold lfuResolveSize sizedBySom
  grind

/-- The printer's choice. -/
structure ShowsSizes (rec : LfuRec) (line : Line) : Prop where
  size : line.size = if rec.t1.haveSom then rec.t1.somSize else rec.size
  blocks : line.blocks = if rec.t1.haveSom then rec.t1.somBlocks else rec.blocks

theorem lfuEmit_showsSizes {rec : LfuRec} (valid : rec.t1Valid = true) (printer : LfuCtx)
    (diagnostic : Option LfuClass) (unknown : Bool)
    : ShowsSizes rec (lfuEmit printer diagnostic rec unknown) := by
  constructor <;> simp only [lfuEmit, valid, Bool.true_and]

/-- Once the filter could tell the size, the line shows it exactly when the two choices agree.
-/
theorem printedAsJudged_iff {judged : LfuRec} {wantBlocks : Bool} {line : Line}
    (known : lfuResolveSize judged judged.t1 wantBlocks ≠ none)
    (shown : ShowsSizes judged line)
    : PrintedAsJudged judged line ↔ SizesAgree judged := by
  obtain ⟨size, blocks⟩ := shown
  have resolved := lfuResolveSize_eq judged
  cases striped : sizedBySom judged with
  | true =>
      have flags
          : (judged.t1.haveSom
              && judged.t1.somValid &&& (somFlStrict ||| somFlLazy) != 0) = true := by
        by_contra invalid
        rw [resolved, if_pos striped, if_neg invalid] at known
        exact known rfl
      have som : judged.t1.haveSom = true := (Bool.and_eq_true_iff.mp flags).1
      refine iff_of_true ⟨?_, ?_⟩ fun _ => .inl striped
      · rw [resolved, if_pos striped, if_pos flags, size, if_pos som]
        rfl
      · rw [resolved, if_pos striped, if_pos flags, blocks, if_pos som]
        rfl
  | false =>
      have own (want : Bool)
          : lfuResolveSize judged judged.t1 want
            = some (if want then judged.blocks * 512 else judged.size) := by
        rw [resolved, striped]
        rfl
      cases som : judged.t1.haveSom with
      | false =>
          rw [som] at size blocks
          refine iff_of_true ⟨?_, ?_⟩ fun present => absurd (som.symm.trans present) (by decide)
          · rw [own, size]
            rfl
          · rw [own, blocks]
            rfl
      | true =>
          rw [som] at size blocks
          constructor
          · intro same _
            have ofSize := same.size
            have ofBlocks := same.blocks
            rw [own, size] at ofSize
            rw [own, blocks] at ofBlocks
            exact .inr ⟨(Option.some.inj ofSize).symm, (Option.some.inj ofBlocks).symm⟩
          · intro agree
            rcases agree som with chosen | ⟨sameSize, sameBlocks⟩
            · exact absurd (striped.symm.trans chosen) (by decide)
            · refine ⟨?_, ?_⟩
              · rw [own, size]
                exact congrArg some sameSize.symm
              · rw [own, blocks]
                exact congrArg some sameBlocks.symm

section Matched

variable {env : Platform} {f : LfuFilter} {rec : LfuRec} {t1 : LfuTier1}
  {eas : Option LfuEas}

/-- A file that matches satisfies every predicate of the second pass. -/
theorem loopAnswer_of_matched (matched : lfuFilterTier1 env f rec t1 eas = .matched)
    {p : LfuPred} (used : p ∈ f.preds) (tier : inTier0 p = false)
    : loopAnswer env rec 0 t1 eas p = .yes := by
  rw [lfuFilterTier1, tier1Loop_conjoins 0] at matched
  have all : Kleene.all ((f.preds.filter (fun p => !inTier0 p)).map
      (loopAnswer env rec 0 t1 eas)) = .yes := by
    generalize Kleene.all _ = answer at matched ⊢
    cases answer <;> first | rfl | cases matched
  rw [Kleene.all_eq_yes_iff] at all
  exact all _ (List.mem_map_of_mem (List.mem_filter.mpr ⟨used, by simp [tier]⟩))

/-- A predicate on the size or the blocks that is satisfied was compared with a known value.
-/
theorem sized_of_matched (matched : lfuFilterTier1 env f rec t1 eas = .matched)
    {p : LfuPred} (used : p ∈ f.preds) (wantBlocks : Bool)
    (field : p.field = if wantBlocks then LfuField.blocks.code else LfuField.size.code)
    : ∃ value, lfuResolveSize rec t1 wantBlocks = some value
        ∧ negated p (lfuCmp p value) = true := by
  have tier : lfuFieldTier p.field = 1 := by
    rw [field]
    cases wantBlocks <;> rfl
  have answer := loopAnswer_of_matched matched used (by simp [inTier0, tier])
  have code : LfuField.ofCode? p.field = some (if wantBlocks then .blocks else .size) := by
    rw [field]
    cases wantBlocks <;> rfl
  have hit : tier1Hit env p rec t1 eas
      = (lfuResolveSize rec t1 wantBlocks).elim .undecided fun value => .hit (lfuCmp p value) := by
    unfold tier1Hit
    rw [code]
    cases wantBlocks with
    | false => cases resolved : lfuResolveSize rec t1 false <;> simp [resolved]
    | true => cases resolved : lfuResolveSize rec t1 true <;> simp [resolved]
  rw [loopAnswer, if_neg (by rw [tier]; decide), hit] at answer
  cases resolved : lfuResolveSize rec t1 wantBlocks with
  | none =>
      rw [resolved] at answer
      cases answer
  | some value =>
      rw [resolved] at answer
      refine ⟨value, rfl, ?_⟩
      dsimp only [Option.elim_some] at answer
      cases outcome : negated p (lfuCmp p value) with
      | true => rfl
      | false =>
          rw [outcome] at answer
          cases answer

/-- There is a predicate on the size or on the blocks. -/
def asksSize (f : LfuFilter) : Prop :=
  ∃ p ∈ f.preds, p.field = LfuField.size.code ∨ p.field = LfuField.blocks.code

instance (f : LfuFilter) : Decidable (asksSize f) := by
  unfold asksSize
  infer_instance

theorem known_of_matched (matched : lfuFilterTier1 env f rec t1 eas = .matched)
    (asks : asksSize f)
    : ∃ wantBlocks, lfuResolveSize rec t1 wantBlocks ≠ none := by
  obtain ⟨p, used, size | blocks⟩ := asks
  · obtain ⟨value, known, _⟩ := sized_of_matched matched used false size
    exact ⟨false, by simp [known]⟩
  · obtain ⟨value, known, _⟩ := sized_of_matched matched used true blocks
    exact ⟨true, by simp [known]⟩

/-- A line that shows what was compared satisfies the filter by its own numbers. -/
theorem PrintedAsJudged.satisfies {judged : LfuRec} {line : Line}
    (printed : PrintedAsJudged judged line)
    (matched : lfuFilterTier1 env f judged judged.t1 eas = .matched)
    : SatisfiesSizes f line := by
  intro p used
  refine ⟨fun size => ?_, fun blocks => ?_⟩
  · obtain ⟨value, known, satisfied⟩ := sized_of_matched matched used false size
    rw [printed.size, Option.some.injEq] at known
    rwa [known]
  · obtain ⟨value, known, satisfied⟩ := sized_of_matched matched used true blocks
    rw [printed.blocks, Option.some.injEq] at known
    rwa [known]

/-- A filter that asks for the size demands attributes. -/
theorem needs_of_asksSize {ns : NameService} (compiled : Compiled ns f) (asks : asksSize f)
    : f.needs ≠ 0 := by
  rw [compiled.wellCompiled.needs, demandUnion_ne_zero_iff]
  obtain ⟨p, used, field⟩ := asks
  refine ⟨p, used, ?_⟩
  rcases field with size | blocks
  · rw [size]
    decide
  · rw [blocks]
    decide

end Matched

section Lines

variable {env : Platform} {cx : LfuCtx} {rec : LfuRec} {eas : Option LfuEas} {line : Line}

theorem emitObject_line {m : LfuMatch} (printed : line ∈ (emitObject cx rec m).2)
    : ∃ printer, line = lfuEmit printer none rec (m == .unknown) := by
  unfold emitObject at printed
  dsimp only at printed
  split at printed
  · exact ⟨_, List.mem_singleton.mp printed⟩
  · cases printed

theorem judgeObject_line (printed : line ∈ (judgeObject env cx rec eas).2)
    : objectVerdict env cx rec eas ≠ .noMatch
      ∧ ∃ printer, line
        = lfuEmit printer none rec (objectVerdict env cx rec eas == .unknown) := by
  unfold judgeObject at printed
  cases verdict : objectVerdict env cx rec eas with
  | noMatch =>
      rw [verdict] at printed
      cases printed
  | matched =>
      rw [verdict] at printed
      exact ⟨by decide, emitObject_line printed⟩
  | unknown =>
      rw [verdict] at printed
      dsimp only at printed
      split at printed
      · exact ⟨by decide, emitObject_line printed⟩
      split at printed
      · exact ⟨by decide, emitObject_line printed⟩
      · cases printed

/-- A line that is not a diagnostic shows the record as it was judged. -/
theorem lfuObject_line {haveLma : Bool} (printed : line ∈ (lfuObject env cx rec haveLma eas).2)
    (record : line.diagnostic = none)
    : objectVerdict env cx (decodeObject cx rec eas).2 eas ≠ .noMatch
      ∧ ∃ printer, line
        = lfuEmit printer none (decodeObject cx rec eas).2
            (objectVerdict env cx (decodeObject cx rec eas).2 eas == .unknown) := by
  have fixed := (decodeObject_fixed (countClass cx (lfuClassify rec haveLma)) rec eas).2
  have same : (decodeObject (countClass cx (lfuClassify rec haveLma)) rec eas).2
      = (decodeObject cx rec eas).2 :=
    (decodeObject_rec _ rec eas).trans (decodeObject_rec cx rec eas).symm
  unfold lfuObject at printed
  dsimp only at printed
  rw [same] at printed
  generalize (decodeObject (countClass cx (lfuClassify rec haveLma)) rec eas).1 = after
    at fixed printed
  have verdict : objectVerdict env after (decodeObject cx rec eas).2 eas
      = objectVerdict env cx (decodeObject cx rec eas).2 eas := by
    have o : after.o = cx.o := (congrArg LfuCtx.o fixed :)
    have ops : after.ops = cx.ops := (congrArg LfuCtx.ops fixed :)
    have needs : after.needs = cx.needs := (congrArg LfuCtx.needs fixed :)
    simp only [objectVerdict, o, ops, needs]
  have undiagnosed
      : line ∉ (if after.o.verbose && !after.o.quiet then
          [lfuEmit after (some (lfuClassify rec haveLma)) (decodeObject cx rec eas).2 false]
        else []) := by
    split
    · intro member
      rw [List.mem_singleton.mp member] at record
      cases record
    · exact List.not_mem_nil
  unfold showObject at printed
  dsimp only at printed
  split at printed
  · exact absurd printed undiagnosed
  · rw [← verdict]
    exact judgeObject_line ((List.mem_append.mp printed).resolve_left undiagnosed)

end Lines

section Pushed

variable {kernel env : Platform} {ring : LfuRing} {cx : LfuCtx} {now : Int} {oid : UInt64}
  {dor : DtOtableRec} {reply : XattrName → XaReply} {line : Line}

theorem visitObject_pushdown {rec : LfuRec} {haveLma : Bool} {eas : Option LfuEas}
    (pushdown : cx.ops.pushdown = true)
    : visitObject env cx rec haveLma eas = lfuObject env cx rec haveLma eas := by
  simp [visitObject, lfuPrefilter, pushdown]

theorem pushedRecord_some {wr : LfuWireRec}
    (pushed : pushedRecord kernel ring now oid dor reply = some wr)
    : let result := lfuFilterObject kernel ring reply (lfuRecFromDor oid dor) now
      (result.verdict = .ok .matched ∨ result.verdict = .ok .unknown)
      ∧ wr = lfuFillRec oid dor result.record result.lfuBits := by
  intro result
  unfold pushedRecord at pushed
  cases way : afterFilter ring.emitUnknown oid dor result with
  | stallTest sent =>
      rw [way] at pushed
      cases pushed
      exact afterFilter_pushed way
  | _ =>
      rw [way] at pushed
      cases pushed

/-- A match in the kernel is one of the second pass on the decoded attributes. -/
theorem lfuFilterObject_matched {o : LfuOpts} {rec : LfuRec}
    (installed : ring.filter = some (filterPayload o)) (needs : o.filter.needs ≠ 0)
    (matched : (lfuFilterObject kernel ring reply rec now).verdict = .ok .matched)
    : let judged := (lfuFilterObject kernel ring reply rec now).record
      judged.t1Valid = true
      ∧ ∃ eas, lfuFilterTier1 kernel o.filter judged judged.t1 (some eas) = .matched := by
  have demands : (lfuFilterNeeds o.filter == 0) = false := beq_eq_false_iff_ne.mpr needs
  unfold lfuFilterObject at matched ⊢
  rw [installed] at matched ⊢
  dsimp only [filterPayload] at matched ⊢
  split
  · rename_i rejected
    rw [if_pos rejected] at matched
    cases matched
  rename_i survives
  rw [if_neg survives] at matched
  rw [demands] at matched ⊢
  simp only [Bool.false_eq_true, if_false] at matched ⊢
  cases gathered : gather (lfuFilterNeeds o.filter) reply ring.st with
  | error failed =>
      rw [gathered] at matched
      cases matched
  | ok g =>
      rw [gathered] at matched
      dsimp only at matched ⊢
      rw [judgeGathered_eq] at matched ⊢
      have matched := Except.ok.inj matched
      unfold gatheredMatch at matched
      split at matched
      · cases matched
      · exact ⟨rfl, _, matched⟩

/-- A line without a tag, printed from the stream, shows the record the kernel matched. -/
theorem kernelPath_line {o : LfuOpts} (installed : ring.filter = some (filterPayload o))
    (needs : o.filter.needs ≠ 0) (pushdown : cx.ops.pushdown = true)
    (printed : line ∈ (kernelPath kernel env ring cx oid dor reply).2)
    (record : line.diagnostic = none) (untagged : line.unknown = false)
    : let judged := (lfuFilterObject kernel ring reply (lfuRecFromDor oid dor) cx.now).record
      judged.t1Valid = true
      ∧ (∃ eas, lfuFilterTier1 kernel o.filter judged judged.t1 (some eas) = .matched)
      ∧ ShowsSizes judged line := by
  intro judged
  unfold kernelPath at printed
  cases pushed : pushedRecord kernel ring cx.now oid dor reply with
  | none =>
      rw [pushed] at printed
      cases printed
  | some wr =>
      rw [pushed] at printed
      obtain ⟨verdict, sent⟩ := pushedRecord_some pushed
      obtain ⟨decoded, unknown, external, made, bits⟩ :=
        lfuFilterObject_pushes kernel ring reply oid dor cx.now
      rw [made, bits] at sent
      change line ∈ (visitObject env { cx with st := lfuStatsMerge cx.st { seen := 1 } }
        (lfuKmdtRec wr) ((lfuKmdtRec wr).fid.fSeq != 0) none).2 at printed
      have through
          : ({ cx with st := lfuStatsMerge cx.st { seen := 1 } } : LfuCtx).ops.pushdown
            = true :=
        pushdown
      rw [visitObject_pushdown through] at printed
      generalize ({ cx with st := lfuStatsMerge cx.st { seen := 1 } } : LfuCtx) = after
        at printed through
      obtain ⟨_, printer, shown⟩ := lfuObject_line printed record
      obtain ⟨_, tag, _, same⟩ := wire_round_trip after oid dor decoded unknown external
      rw [← sent] at tag same
      rw [objectVerdict, if_pos through, tag] at shown
      have clear : unknown = false := by
        cases unknown with
        | false => rfl
        | true =>
            rw [shown] at untagged
            cases untagged
      subst clear
      have matched
          : (lfuFilterObject kernel ring reply (lfuRecFromDor oid dor) cx.now).verdict
            = .ok .matched := by
        refine verdict.resolve_right fun undecided => ?_
        have mark :=
          (lfuFilterObject_marks kernel ring reply (lfuRecFromDor oid dor) cx.now).2.2 _
            undecided
        rw [bits] at mark
        cases external <;> exact absurd mark (by decide)
      obtain ⟨valid, decided⟩ := lfuFilterObject_matched installed needs matched
      refine ⟨valid, decided, ?_⟩
      rw [made] at valid
      have extended
          : ({ kernelRecord oid dor decoded with hasExtEa := external } : LfuRec).t1Valid
            = true :=
        valid
      have sizes := lfuEmit_showsSizes extended printer none false
      have plain : line = lfuEmit printer none (decodeObject after (lfuKmdtRec wr) none).2 false :=
        shown
      rw [← same, ← plain] at sizes
      change ShowsSizes
        (lfuFilterObject kernel ring reply (lfuRecFromDor oid dor) cx.now).record line
      rw [made]
      exact ⟨sizes.size, sizes.blocks⟩

end Pushed

-----------------------------------------------------------------------------------------
-- Printed and judged
-----------------------------------------------------------------------------------------

/-- A line without the tag, and the record that was judged for it: decoded and filtered by the
core, or by the kernel with the filter the scan has installed.
-/
inductive Untagged (env kernel : Platform) (o : LfuOpts) (now : Int) : LfuRec → Line → Prop
  | device (ops : LfuTargetOps) (cx : LfuCtx) (rec : LfuRec) (haveLma : Bool)
    (eas : Option LfuEas) (line : Line) (context : cx.base = workerCtx o ops now)
    (here : ops.pushdown = false) (printed : line ∈ (lfuObject env cx rec haveLma eas).2)
    (record : line.diagnostic = none) (untagged : line.unknown = false)
    : Untagged env kernel o now (decodeObject cx rec eas).2 line
  | pushed (ops : LfuTargetOps) (cx : LfuCtx) (ring : LfuRing) (oid : UInt64)
    (dor : DtOtableRec) (reply : XattrName → XaReply) (line : Line)
    (context : cx.base = workerCtx o ops now) (there : ops.pushdown = true)
    (installed : ring.filter = some (filterPayload o))
    (printed : line ∈ (kernelPath kernel env ring cx oid dor reply).2)
    (record : line.diagnostic = none) (untagged : line.unknown = false)
    : Untagged env kernel o now
        (lfuFilterObject kernel ring reply (lfuRecFromDor oid dor) now).record line

/-- A line without the tag shows a record on which the whole filter has matched. -/
theorem Untagged.matched {ns : NameService} {env kernel : Platform} {o : LfuOpts} {now : Int}
    {judged : LfuRec} {line : Line} (compiled : Compiled ns o.filter)
    (asks : asksSize o.filter) (emitted : Untagged env kernel o now judged line)
    : judged.t1Valid = true
      ∧ (∃ platform eas,
          lfuFilterTier1 platform o.filter judged judged.t1 eas = .matched)
      ∧ ShowsSizes judged line := by
  have needs := needs_of_asksSize compiled asks
  cases emitted with
  | device ops cx rec haveLma eas line context here printed record untagged =>
      have o_ : cx.o = o := (congrArg LfuCtx.o context :)
      have demanded : cx.needs = o.filter.needs := (congrArg LfuCtx.needs context :)
      have direct : cx.ops.pushdown = false :=
        (congrArg (fun cx => cx.ops.pushdown) context :).trans here
      have some_ : (cx.needs != 0) = true := by
        rw [demanded]
        exact bne_iff_ne.mpr needs
      have valid : (decodeObject cx rec eas).2.t1Valid = true := by
        rw [decodeObject_rec, some_, Bool.true_and]
        cases decoded : rec.t1Valid <;> simp [decoded]
      obtain ⟨verdict, printer, shown⟩ := lfuObject_line printed record
      rw [objectVerdict, direct, if_neg (by decide), if_pos some_, o_] at verdict shown
      have decided : lfuFilterTier1 env o.filter (decodeObject cx rec eas).2
          (decodeObject cx rec eas).2.t1 eas = .matched := by
        cases outcome : lfuFilterTier1 env o.filter (decodeObject cx rec eas).2
            (decodeObject cx rec eas).2.t1 eas with
        | noMatch => exact absurd outcome verdict
        | matched => rfl
        | unknown =>
            rw [outcome] at shown
            rw [shown] at untagged
            cases untagged
      rw [shown]
      exact ⟨valid, ⟨env, eas, decided⟩, lfuEmit_showsSizes valid printer none _⟩
  | pushed ops cx ring oid dor reply line context there installed printed record untagged =>
      have now_ : cx.now = now := (congrArg LfuCtx.now context :)
      have through : cx.ops.pushdown = true :=
        (congrArg (fun cx => cx.ops.pushdown) context :).trans there
      obtain ⟨valid, ⟨eas, matched⟩, shown⟩ :=
        kernelPath_line installed needs through printed record untagged
      rw [now_] at valid matched shown
      exact ⟨valid, ⟨kernel, some eas, matched⟩, shown⟩

/-- For a filter that asks for the size or the blocks, a line without the tag shows the values
that were compared exactly when SOM is absent, or is what the file is judged by, or says what
the inode says; and where it does show them, they satisfy the filter.
-/
theorem printed_size_is_judged_iff {ns : NameService} {env kernel : Platform} {o : LfuOpts}
    {now : Int} {judged : LfuRec} {line : Line} (compiled : Compiled ns o.filter)
    (asks : asksSize o.filter) (emitted : Untagged env kernel o now judged line)
    : (PrintedAsJudged judged line ↔ SizesAgree judged)
      ∧ (PrintedAsJudged judged line → SatisfiesSizes o.filter line) := by
  obtain ⟨_, ⟨platform, eas, matched⟩, shown⟩ := emitted.matched compiled asks
  obtain ⟨wantBlocks, known⟩ := known_of_matched matched asks
  exact ⟨printedAsJudged_iff known shown, fun printed => printed.satisfies matched⟩

/-- Files below 1 MiB. -/
def smallFiles : LfuOpts :=
  match lfuFilterOpt noNames {} .size (cstr "-1M") with
  | some result => { filter := result.filter }
  | none => {}

theorem smallFiles_compiled : Compiled noNames smallFiles.filter := by
  have ran : (lfuFilterOpt noNames {} .size (cstr "-1M")).any (·.rc == 0) = true := by
    decide
  unfold smallFiles
  cases run : lfuFilterOpt noNames {} .size (cstr "-1M") with
  | none => simp [run] at ran
  | some result =>
      rw [run, Option.any_some, beq_iff_eq] at ran
      exact .opt .empty .size _ run ran

/-- A released component, and a lazy SOM of 16 MiB in 32768 blocks. -/
def releasedEas : LfuEas :=
  {
    lov := some
      ([0xd0, 0x0b, 0xd1, 0x0b, 1, 0, 0, 0x80] ++ List.replicate 20 0 ++ [1, 0, 0, 0])
    som := some
      ([4, 0, 0, 0, 0, 0, 0, 0] ++ [0, 0, 0, 1, 0, 0, 0, 0] ++ [0, 128, 0, 0, 0, 0, 0, 0])
  }

/-- A released file whose inode has 4096 bytes in 8 blocks. -/
def releasedFile : LfuRec :=
  { fid := { fSeq := 0x200000401, fOid := 1 }, mode := 0o100644, size := 4096, blocks := 8 }

/-- The file is selected as one of 4096 bytes, and printed as one of 16 MiB. -/
theorem printed_size_released
    : let cx := workerCtx smallFiles { idLabel := [] } 0
      let judged := (decodeObject cx releasedFile (some releasedEas)).2
      (lfuObject exactNames cx releasedFile true (some releasedEas)).2.map
          (fun line => (line.diagnostic, line.unknown, line.size, line.blocks))
        = [(none, false, 0x1000000, 0x8000)]
      ∧ lfuResolveSize judged judged.t1 false = some 4096
      ∧ smallFiles.filter.preds.map (fun p => (p.field == LfuField.size.code,
          negated p (lfuCmp p 4096), negated p (lfuCmp p 0x1000000)))
        = [(true, true, false)] := by
  decide

theorem printed_size_is_judged_iff_released
    : let cx := workerCtx smallFiles { idLabel := [] } 0
      let judged := (decodeObject cx releasedFile (some releasedEas)).2
      ∃ line, Untagged exactNames exactNames smallFiles 0 judged line
        ∧ ¬PrintedAsJudged judged line := by
  intro cx judged
  have asks : asksSize smallFiles.filter := by decide
  obtain ⟨line, printed, record, untagged⟩
      : ∃ line ∈ (lfuObject exactNames cx releasedFile true (some releasedEas)).2,
          line.diagnostic = none ∧ line.unknown = false := by
    decide
  have emitted : Untagged exactNames exactNames smallFiles 0 judged line :=
    .device { idLabel := [] } cx releasedFile true (some releasedEas) line rfl rfl printed
      record untagged
  refine ⟨line, emitted, fun shown => ?_⟩
  have agree := (printed_size_is_judged_iff smallFiles_compiled asks emitted).1.mp shown
  exact absurd (agree (by decide)) (by decide)

end LfuScan.Kmdt
