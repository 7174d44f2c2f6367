import LfuScan.Foundations.Kleene
import LfuScan.Filter.Walkers

/-! The two evaluation loops together are one three-valued conjunction over the predicates,
whatever order they come in. Stated over any decoded attributes, not only those that were
decoded from the raw values at hand.
-/

namespace LfuScan.Filter

open LfuScan.Lustre LfuScan.Foundations

/-- The outcome that stands for an answer. -/
def LfuMatch.ofKleene : Kleene → LfuMatch
  | .no => .noMatch
  | .yes => .matched
  | .unknown => .unknown

/-- How the loops take one predicate: a code no switch handles constrains nothing. -/
def loopAnswer (env : Platform) (rec : LfuRec) (now : Int) (t1 : LfuTier1)
    (eas : Option LfuEas) (p : LfuPred)
    : Kleene :=
  if lfuFieldTier p.field = 0 then
    match tier0Hit p rec now with
    | none => .yes
    | some hit => .ofBool (negated p hit)
  else
    match tier1Hit env p rec t1 eas with
    | .skip => .yes
    | .undecided => .unknown
    | .hit found => .ofBool (negated p found)

/-- The predicate is judged in the first pass. -/
def inTier0 (p : LfuPred) : Bool := lfuFieldTier p.field = 0

theorem lfuFieldTier_cases (code : UInt8) : lfuFieldTier code = 0 ∨ lfuFieldTier code = 1 := by
  unfold lfuFieldTier
  split
  · exact .inr rfl
  · exact .inl rfl

section Loops

variable {env : Platform} {rec : LfuRec} {now : Int} {t1 : LfuTier1} {eas : Option LfuEas}

/-- The tier-0 loop conjoins the answers of the tier-0 predicates, which are all definite.
-/
theorem tier0Loop_conjoins (preds : List LfuPred)
    : Kleene.ofBool (tier0Loop rec now preds)
      = .all ((preds.filter inTier0).map (loopAnswer env rec now t1 eas)) := by
  induction preds with
  | nil => rfl
  | cons p rest ih =>
      rcases lfuFieldTier_cases p.field with tier | tier
      · have first : loopAnswer env rec now t1 eas p
            = match tier0Hit p rec now with
              | none => .yes
              | some hit => .ofBool (negated p hit) := by
          rw [loopAnswer, if_pos tier]
        simp only [tier0Loop, tier, bne_self_eq_false, Bool.false_eq_true, if_false,
          List.filter_cons, inTier0, decide_true, if_true, List.map_cons, Kleene.all_cons,
          first]
        cases tier0Hit p rec now with
        | none => simpa using ih
        | some hit =>
            cases outcome : negated p hit with
            | false => simp [outcome, Kleene.ofBool]
            | true => simpa [outcome, Kleene.ofBool] using ih
      · simpa [tier0Loop, tier, inTier0] using ih

/-- The tier-1 loop conjoins the answers of the tier-1 predicates to what its `unknown`
flag already says.
-/
theorem tier1Loop_conjoins (now : Int) (preds : List LfuPred) (unknown : Bool)
    : tier1Loop env rec t1 eas preds unknown
      = .ofKleene
          ((if unknown then Kleene.unknown else .yes).and
            (.all ((preds.filter (fun p => !inTier0 p)).map
              (loopAnswer env rec now t1 eas)))) := by
  induction preds generalizing unknown with
  | nil => cases unknown <;> rfl
  | cons p rest ih =>
      rcases lfuFieldTier_cases p.field with tier | tier
      · simpa [tier1Loop, tier, inTier0] using ih unknown
      · have first : loopAnswer env rec now t1 eas p
            = match tier1Hit env p rec t1 eas with
              | .skip => .yes
              | .undecided => .unknown
              | .hit found => .ofBool (negated p found) := by
          rw [loopAnswer, if_neg (by rw [tier]; decide)]
        have chosen : inTier0 p = false := by simp [inTier0, tier]
        simp only [tier1Loop, tier, bne_self_eq_false, Bool.false_eq_true, if_false,
          List.filter_cons, chosen, Bool.not_false, if_true, List.map_cons,
          Kleene.all_cons, first]
        cases tier1Hit env p rec t1 eas with
        | skip => simpa using ih unknown
        | undecided =>
            rw [ih true, ← Kleene.and_assoc]
            cases unknown <;> rfl
        | hit found =>
            cases outcome : negated p found with
            | false => simp [outcome, Kleene.ofBool, LfuMatch.ofKleene]
            | true => simpa [outcome, Kleene.ofBool] using ih unknown

end Loops

-----------------------------------------------------------------------------------------
-- The verdict of a whole filter
-----------------------------------------------------------------------------------------

/-- The verdict of both passes: no match if the first rejects, else what the second says. -/
def combinedVerdict (env : Platform) (f : LfuFilter) (rec : LfuRec) (now : Int)
    (t1 : LfuTier1) (eas : Option LfuEas)
    : LfuMatch :=
  if lfuFilterTier0 f rec now then lfuFilterTier1 env f rec t1 eas else .noMatch

/-- What the comparison of one predicate says, before its negation. -/
def comparison (env : Platform) (rec : LfuRec) (now : Int) (t1 : LfuTier1)
    (eas : Option LfuEas) (p : LfuPred)
    : Kleene :=
  if lfuFieldTier p.field = 0 then
    match tier0Hit p rec now with
    | none => .yes
    | some hit => .ofBool hit
  else
    match tier1Hit env p rec t1 eas with
    | .skip => .yes
    | .undecided => .unknown
    | .hit found => .ofBool found

/-- The verdict of one predicate on its own. -/
def predVerdict (env : Platform) (rec : LfuRec) (now : Int) (t1 : LfuTier1)
    (eas : Option LfuEas) (p : LfuPred)
    : Kleene :=
  let answer := comparison env rec now t1 eas p
  if p.neg != 0 then answer.not else answer

section Verdict

variable {env : Platform} {rec : LfuRec} {now : Int} {t1 : LfuTier1} {eas : Option LfuEas}

theorem combinedVerdict_eq (f : LfuFilter)
    : combinedVerdict env f rec now t1 eas
      = .ofKleene (.all (f.preds.map (loopAnswer env rec now t1 eas))) := by
  have first : Kleene.ofBool (lfuFilterTier0 f rec now)
      = .all ((f.preds.filter inTier0).map (loopAnswer env rec now t1 eas)) :=
    tier0Loop_conjoins f.preds
  have second : lfuFilterTier1 env f rec t1 eas = _ := tier1Loop_conjoins now f.preds false
  rw [Kleene.all_partition _ inTier0, ← first, combinedVerdict, second]
  cases lfuFilterTier0 f rec now <;> rfl

/-- The link loop depends on the platform and the predicate through the pattern they match. -/
theorem linkeaLoop_congr {p q : LfuPred} {other : Platform}
    (glob : lfuGlob env p.pattern = lfuGlob other q.pattern) (b : Bytes)
    (lehLen left off : Nat)
    : linkeaLoop env p b lehLen left off = linkeaLoop other q b lehLen left off := by
  induction left generalizing off with
  | zero => rfl
  | succ left ih =>
      unfold linkeaLoop
      rw [glob]
      simp only [ih]

theorem lfuLinkeaName_congr {p q : LfuPred} {other : Platform}
    (order : env.order = other.order)
    (glob : lfuGlob env p.pattern = lfuGlob other q.pattern) (ea : LfuEa)
    : lfuLinkeaName env ea p = lfuLinkeaName other ea q := by
  unfold lfuLinkeaName
  rw [order]
  simp only [linkeaLoop_congr glob]

/-- The comparison does not look at the negation. -/
theorem comparison_neg (p : LfuPred) (neg : UInt8)
    : comparison env rec now t1 eas { p with neg } = comparison env rec now t1 eas p := by
  have cmp : lfuCmp { p with neg } = lfuCmp p := rfl
  have ost (ea : LfuEa) : lfuLovOnOst ea { p with neg } = lfuLovOnOst ea p :=
    lfuLovOnOst_congr cmp ea
  have glob : lfuGlob env (LfuPred.pattern { p with neg }) = lfuGlob env p.pattern := rfl
  have link (ea : LfuEa) : lfuLinkeaName env ea { p with neg } = lfuLinkeaName env ea p :=
    lfuLinkeaName_congr rfl glob ea
  have tier1 : tier1Hit env { p with neg } rec t1 eas = tier1Hit env p rec t1 eas := by
    unfold tier1Hit
    simp only [ost, link]
    rfl
  unfold comparison
  rw [tier1]
  rfl

/-- Every code below the last one names a field. -/
theorem LfuField.exists_code {code : UInt8} (named : code < lfuFMax)
    : ∃ field : LfuField, code = field.code := by
  have entries : ∀ i : Fin LfuField.table.length,
      (LfuField.table.get i).code = UInt8.ofNat i.val := by decide
  have small : code.toNat < LfuField.table.length := UInt8.lt_iff_toNat_lt.mp named
  exact ⟨LfuField.table.get ⟨code.toNat, small⟩, by rw [entries, UInt8.ofNat_toNat]⟩

/-- A predicate that was validated is handled by one of the two switches, so the loops take it
at its own verdict.
-/
theorem loopAnswer_sound {p : LfuPred} (sound : predSound p = true)
    : loopAnswer env rec now t1 eas p = predVerdict env rec now t1 eas p := by
  have named : p.field < lfuFMax := by
    simp only [predSound, Bool.and_eq_true, Bool.not_eq_true', Bool.or_eq_false_iff,
      decide_eq_false_iff_not] at sound
    exact UInt8.not_le.mp sound.1.1.1.1
  obtain ⟨field, code⟩ := LfuField.exists_code named
  have negation (hit : Bool)
      : Kleene.ofBool (negated p hit)
        = if p.neg != 0 then (Kleene.ofBool hit).not else .ofBool hit := by
    unfold negated
    split <;> cases hit <;> rfl
  unfold loopAnswer predVerdict comparison
  split
  · rename_i tier
    have handled : (tier0Hit p rec now).isSome := by
      unfold tier0Hit
      rw [code, LfuField.ofCode?_code]
      rw [code] at tier
      cases field <;> first | rfl | exact absurd tier (by decide)
    obtain ⟨hit, found⟩ := Option.isSome_iff_exists.mp handled
    simp only [found, negation]
  · rename_i tier
    cases outcome : tier1Hit env p rec t1 eas with
    | skip =>
        exfalso
        unfold tier1Hit at outcome
        rw [code, LfuField.ofCode?_code] at outcome
        rw [code] at tier
        cases field with
        | size | blocks =>
            dsimp only at outcome
            split at outcome <;> cases outcome
        | stripeCount | stripeSize | ost | pool | layout | mirrorCount | compCount | mdtCount
        | mdtHash | name => cases outcome
        | _ => exact tier rfl
    | undecided =>
        dsimp only
        split <;> rfl
    | hit found => exact negation found

theorem preds_sound {f : LfuFilter} (validated : lfuFilterValidate f = 0) {p : LfuPred}
    (used : p ∈ f.preds)
    : predSound p = true := by
  unfold lfuFilterValidate at validated
  split at validated
  · cases validated
  split at validated
  · cases validated
  split at validated
  · rename_i all
    exact List.all_eq_true.mp all p used
  · cases validated

/-- Evaluation is a Kleene conjunction: of the verdicts of the predicates, each of which is what
a filter of that predicate alone would say, with a negation that swaps the definite answers.
Order and repetition make no difference.
-/
theorem filter_is_conjunction (env : Platform) (f : LfuFilter) (rec : LfuRec) (now : Int)
    (t1 : LfuTier1) (eas : Option LfuEas) (validated : lfuFilterValidate f = 0)
    : combinedVerdict env f rec now t1 eas
        = .ofKleene (.all (f.preds.map (predVerdict env rec now t1 eas)))
      ∧ (∀ p ∈ f.preds,
          (∀ alone : LfuFilter, alone.preds = [p] →
            combinedVerdict env alone rec now t1 eas
              = .ofKleene (predVerdict env rec now t1 eas p))
          ∧ (p.neg ≠ 0 →
              predVerdict env rec now t1 eas p
                = (predVerdict env rec now t1 eas { p with neg := 0 }).not))
      ∧ ∀ other : LfuFilter, (∀ p, p ∈ other.preds ↔ p ∈ f.preds) →
          combinedVerdict env other rec now t1 eas = combinedVerdict env f rec now t1 eas := by
  refine ⟨?_, ?_, ?_⟩
  · rw [combinedVerdict_eq]
    refine congrArg (fun answers => LfuMatch.ofKleene (.all answers)) ?_
    exact List.map_congr_left fun p used => loopAnswer_sound (preds_sound validated used)
  · intro p used
    refine ⟨fun alone single => ?_, fun negated => ?_⟩
    · rw [combinedVerdict_eq, single, List.map_singleton,
        loopAnswer_sound (preds_sound validated used), Kleene.all_cons, Kleene.all_nil,
        Kleene.and_yes]
    · unfold predVerdict
      dsimp only
      rw [if_pos (bne_iff_ne.mpr negated), comparison_neg p 0]
      rfl
  · intro other same
    rw [combinedVerdict_eq, combinedVerdict_eq]
    refine congrArg LfuMatch.ofKleene (Kleene.all_congr_mem fun answer => ?_)
    simp only [List.mem_map, same]

theorem filter_is_conjunction_two
    : let uid : LfuPred := { field := LfuField.uid.code, op := LfuOp.eq.code, val := 500 }
      let size : LfuPred :=
        { field := LfuField.size.code, op := LfuOp.gt.code, neg := 1, val := 1024 }
      let f : LfuFilter :=
        { p := Vector.ofFn fun index => if index.val = 0 then uid else size, n := 2 }
      lfuFilterValidate f = 0
      ∧ combinedVerdict exactNames f {} 0 {} none
        = .ofKleene (.all (f.preds.map (predVerdict exactNames {} 0 {} none))) := by
  intro uid size f
  have validated : lfuFilterValidate f = 0 := by decide
  exact ⟨validated, (filter_is_conjunction exactNames f {} 0 {} none validated).1⟩

end Verdict

end LfuScan.Filter
