import LfuScan.Filter.Compile
import LfuScan.Filter.Verdict
import Mathlib.Data.List.Induction

/-! What successful options build: a bounded array of predicates, and a demand mask that is
exactly the union of what their fields demand.
-/

namespace LfuScan.Filter

open LfuScan.Lustre LfuScan.Foundations

variable {ns : NameService} {f : LfuFilter} {result : OptResult}

/-- The option has added a predicate on `fld`. -/
structure Adds (f : LfuFilter) (fld : LfuField) (taken : LfuFilter) (fresh p : LfuPred)
    : Prop where
  new : lfuPredNew f fld = some (taken, fresh)
  field : p.field = fresh.field
  neg : p.neg = fresh.neg
  sound : predSound p = true

/-- Everything a successful option does to the filter. -/
inductive OptEffect (f : LfuFilter) : LfuFilter → Prop
  | negate : OptEffect f { f with negPending := 1 }
  | added {fld : LfuField} {taken : LfuFilter} {fresh p : LfuPred}
    (adds : Adds f fld taken fresh p)
    : OptEffect f (taken.store p)

/-- What `lfu_pred_new` returns. -/
theorem lfuPredNew_some {fld : LfuField} {taken : LfuFilter} {fresh : LfuPred}
    (new : lfuPredNew f fld = some (taken, fresh))
    : f.n ≠ lfuMaxPred
      ∧ fresh = { field := fld.code, neg := if f.negPending != 0 then 1 else 0 }
      ∧ taken.p = f.p.setIfInBounds f.n.toNat fresh ∧ taken.n = f.n + 1
      ∧ taken.negPending = 0 ∧ taken.needs = f.needs ||| lfuFieldNeeds fld.code := by
  unfold lfuPredNew at new
  split at new
  · cases new
  · rename_i room
    simp only [Option.some.injEq, Prod.mk.injEq] at new
    obtain ⟨rfl, rfl⟩ := new
    exact ⟨by simpa using room, rfl, rfl, rfl, rfl, rfl⟩

theorem LfuField.code_lt (field : LfuField) : field.code < lfuFMax := by
  cases field <;> decide

theorem LfuOp.code_lt (op : LfuOp) : op.code < lfuOpMax := by
  cases op <;> decide

theorem predSound_iff (p : LfuPred)
    : predSound p = true
      ↔ p.field < lfuFMax ∧ p.op < lfuOpMax ∧ p.neg ≤ 1 ∧ 0 ≤ p.nlist ∧ p.nlist ≤ lfuMaxList
        ∧ 0 ∈ p.str.toList := by
  simp only [predSound, Bool.and_eq_true, Bool.not_eq_true', Bool.or_eq_false_iff,
    decide_eq_false_iff_not, List.contains_iff_mem, ge_iff_le, gt_iff_lt, UInt8.not_le,
    UInt8.not_lt, Int.not_lt, and_assoc]

/-- The predicate just taken passes every check, and so it does with any operator, values,
list and string that pass theirs.
-/
theorem fresh_sound {fld : LfuField} {taken : LfuFilter} {fresh p : LfuPred} (op : LfuOp)
    (new : lfuPredNew f fld = some (taken, fresh)) (field : p.field = fresh.field)
    (neg : p.neg = fresh.neg) (code : p.op = op.code) (lower : 0 ≤ p.nlist)
    (upper : p.nlist ≤ lfuMaxList) (ended : 0 ∈ p.str.toList)
    : predSound p = true := by
  obtain ⟨_, made, _⟩ := lfuPredNew_some new
  rw [predSound_iff, field, neg, code, made]
  refine ⟨?_, ?_, ?_, lower, upper, ended⟩
  · exact fld.code_lt
  · exact op.code_lt
  · simp only
    split <;> decide

/-- A cleared string ends at once. -/
theorem fresh_ended {fld : LfuField} {taken : LfuFilter} {fresh : LfuPred}
    (new : lfuPredNew f fld = some (taken, fresh))
    : 0 ∈ fresh.str.toList ∧ fresh.nlist = 0 := by
  obtain ⟨_, made, _⟩ := lfuPredNew_some new
  rw [made]
  exact ⟨by simp, rfl⟩

theorem pushPred_effect {fld : LfuField} {op : LfuOp} {val val2 : UInt64}
    (succeeded : (pushPred f fld op val val2).rc = 0)
    : ∃ taken fresh p, Adds f fld taken fresh p
        ∧ (pushPred f fld op val val2).filter = taken.store p := by
  unfold pushPred at succeeded ⊢
  split at succeeded
  · cases succeeded
  · rename_i taken fresh new
    obtain ⟨ended, unlisted⟩ := fresh_ended new
    refine ⟨taken, fresh, { fresh with op := op.code, val, val2 }, ⟨new, rfl, rfl, ?_⟩, rfl⟩
    exact fresh_sound op new rfl rfl rfl (Int.le_of_eq unlisted.symm) (by simp [unlisted]) ended

theorem lfuBad_failed (f : LfuFilter) (opt : String) (arg : Bytes) (said : List Complaint)
    : (lfuBad f opt arg said).rc ≠ 0 := by
  show (-2 : Int) ≠ 0
  decide

theorem compileTime_effect {fld : LfuField} {arg : Bytes}
    (succeeded : (compileTime f fld arg).rc = 0)
    : ∃ taken fresh p, Adds f fld taken fresh p
        ∧ (compileTime f fld arg).filter = taken.store p := by
  unfold compileTime at succeeded ⊢
  cases parsed : lfuParseTime (lfuParseSign arg).2 with
  | none =>
      simp only [parsed] at succeeded
      exact absurd succeeded (lfuBad_failed _ _ _ _)
  | some value =>
      simp only [parsed] at succeeded ⊢
      exact pushPred_effect succeeded

theorem compileCount_effect {fld : LfuField} {arg : Bytes}
    (succeeded : (compileCount f fld arg).rc = 0)
    : ∃ taken fresh p, Adds f fld taken fresh p
        ∧ (compileCount f fld arg).filter = taken.store p := by
  unfold compileCount at succeeded ⊢
  cases parsed : lfuParseU64 (lfuParseSign arg).2 with
  | none =>
      simp only [parsed] at succeeded
      exact absurd succeeded (lfuBad_failed _ _ _ _)
  | some value =>
      simp only [parsed] at succeeded ⊢
      exact pushPred_effect succeeded

theorem compileSize_effect {fld : LfuField} {arg : Bytes}
    (ran : compileSize f fld arg = some result) (succeeded : result.rc = 0)
    : ∃ taken fresh p, Adds f fld taken fresh p ∧ result.filter = taken.store p := by
  unfold compileSize at ran
  simp only at ran
  split at ran
  · cases ran
  · cases ran
    exact absurd succeeded (lfuBad_failed _ _ _ _)
  · cases ran
    exact pushPred_effect succeeded

theorem compileId_effect {fld : LfuField} {id : Option UInt64} {arg : Bytes}
    (succeeded : (compileId f fld id arg).rc = 0)
    : ∃ taken fresh p, Adds f fld taken fresh p
        ∧ (compileId f fld id arg).filter = taken.store p := by
  cases id with
  | none => exact absurd succeeded (lfuBad_failed _ _ _ _)
  | some v => exact pushPred_effect succeeded

theorem compileValue_effect {fld : LfuField} {op : LfuOp} {label : String}
    {value : Option UInt64} {arg : Bytes}
    (succeeded : (compileValue f fld op label value arg).rc = 0)
    : ∃ taken fresh p, Adds f fld taken fresh p
        ∧ (compileValue f fld op label value arg).filter = taken.store p := by
  cases value with
  | none => exact absurd succeeded (lfuBad_failed _ _ _ _)
  | some v => exact pushPred_effect succeeded

/-- Adding to an index list changes the list alone, and stays inside it. -/
structure ListOnly (p q : LfuPred) : Prop where
  field : q.field = p.field
  op : q.op = p.op
  neg : q.neg = p.neg
  str : q.str = p.str
  bounds : 0 ≤ p.nlist ∧ p.nlist ≤ lfuMaxList → 0 ≤ q.nlist ∧ q.nlist ≤ lfuMaxList

theorem ListOnly.refl (p : LfuPred) : ListOnly p p := ⟨rfl, rfl, rfl, rfl, id⟩

theorem ListOnly.trans {p q r : LfuPred} (first : ListOnly p q) (second : ListOnly q r)
    : ListOnly p r :=
  ⟨second.field.trans first.field, second.op.trans first.op, second.neg.trans first.neg,
    second.str.trans first.str, fun inside => second.bounds (first.bounds inside)⟩

theorem addRange_listOnly (hi : UInt64) (left : Nat) (v : UInt64) (p : LfuPred)
    : ListOnly p (addRange hi left v p).pred := by
  induction left generalizing v p with
  | zero => exact .refl p
  | succ left ih =>
      unfold addRange
      split
      · exact .refl p
      · split
        · exact .refl p
        · rename_i room
          split
          · exact .refl p
          · have grown (list : Vector UInt32 64)
                : ListOnly p { p with list, nlist := p.nlist + 1 } := by
              refine ⟨rfl, rfl, rfl, rfl, ?_⟩
              simp only [beq_iff_eq] at room ⊢
              omega
            exact (grown _).trans (ih _ _)

theorem indexTokens_listOnly (tokens : List Bytes) (p : LfuPred)
    : ListOnly p (indexTokens tokens p).pred := by
  induction tokens generalizing p with
  | nil => exact .refl p
  | cons tok rest ih =>
      unfold indexTokens
      split
      · exact .refl p
      · rename_i lo hi range
        have added := addRange_listOnly hi (lfuMaxList + 1) lo p
        simp only
        split
        · exact added.trans (ih _)
        · exact added

theorem lfuParseIndexList_listOnly (arg : Bytes) (p : LfuPred)
    : ListOnly p (lfuParseIndexList arg p).pred := by
  unfold lfuParseIndexList
  split
  · exact .refl p
  · exact indexTokens_listOnly _ _

theorem compileOst_effect {arg : Bytes} (succeeded : (compileOst f arg).rc = 0)
    : ∃ taken fresh p, Adds f .ost taken fresh p
        ∧ (compileOst f arg).filter = taken.store p := by
  unfold compileOst at succeeded ⊢
  cases new : lfuPredNew f .ost with
  | none => simp [new] at succeeded
  | some both =>
      obtain ⟨taken, fresh⟩ := both
      simp only [new] at succeeded ⊢
      split at succeeded
      · rename_i parsed
        have list := lfuParseIndexList_listOnly arg { fresh with op := LfuOp.list.code }
        obtain ⟨ended, unlisted⟩ := fresh_ended new
        obtain ⟨lower, upper⟩ := list.bounds (by simp [unlisted])
        simp only [parsed, if_true]
        refine ⟨taken, fresh, _, ⟨new, list.field, list.neg, ?_⟩, rfl⟩
        refine fresh_sound .list new list.field list.neg list.op lower upper ?_
        rw [list.str]
        exact ended
      · exact absurd succeeded (lfuBad_failed _ _ _ _)

/-- A string that leaves room for its terminator has one. -/
theorem strBuffer_ended {arg : Bytes} (fits : arg.length < lfuStrMax)
    : 0 ∈ (strBuffer arg).toList := by
  have last : (strBuffer arg)[63] = 0 := by
    simp only [strBuffer, Vector.getElem_ofFn]
    rw [List.getD_eq_getElem?_getD, List.getElem?_eq_none (Nat.le_of_lt_succ fits)]
    rfl
  rw [← last]
  exact Vector.mem_toList_iff.mpr (Vector.getElem_mem _)

theorem compilePattern_effect {fld : LfuField} {arg : Bytes}
    (succeeded : (compilePattern f fld arg).rc = 0)
    : ∃ taken fresh p, Adds f fld taken fresh p
        ∧ (compilePattern f fld arg).filter = taken.store p := by
  unfold compilePattern at succeeded ⊢
  cases new : lfuPredNew f fld with
  | none => simp [new] at succeeded
  | some both =>
      obtain ⟨taken, fresh⟩ := both
      simp only [new] at succeeded ⊢
      split at succeeded
      · exact absurd succeeded (lfuBad_failed _ _ _ _)
      · rename_i fits
        obtain ⟨_, unlisted⟩ := fresh_ended new
        simp only [fits, if_false]
        refine ⟨taken, fresh, { fresh with op := LfuOp.str.code, str := strBuffer arg },
          ⟨new, rfl, rfl, ?_⟩, rfl⟩
        exact fresh_sound .str new rfl rfl rfl (Int.le_of_eq unlisted.symm) (by simp [unlisted])
          (strBuffer_ended (Nat.lt_of_not_le fits))

/-- The field an option is about. -/
def LfuOpt.field? : LfuOpt → Option LfuField
  | .not | .other => none
  | .atime => some .atime
  | .mtime => some .mtime
  | .ctime => some .ctime
  | .btime => some .btime
  | .uid => some .uid
  | .gid => some .gid
  | .type => some .type
  | .perm => some .perm
  | .links => some .links
  | .projid => some .projid
  | .attrs => some .attrs
  | .devBlocks => some .devBlocks
  | .size => some .size
  | .blocks => some .blocks
  | .stripeCount => some .stripeCount
  | .stripeSize => some .stripeSize
  | .ost => some .ost
  | .pool => some .pool
  | .layout => some .layout
  | .mirrorCount => some .mirrorCount
  | .compCount => some .compCount
  | .mdtCount => some .mdtCount
  | .mdtHash => some .mdtHash
  | .name => some .name

/-- A successful option is the negation, or adds one predicate on its field. -/
theorem lfuFilterOpt_adds {opt : LfuOpt} {arg : Bytes}
    (ran : lfuFilterOpt ns f opt arg = some result) (succeeded : result.rc = 0)
    : result.filter = { f with negPending := 1 }
      ∨ ∃ fld taken fresh p, opt.field? = some fld ∧ Adds f fld taken fresh p
          ∧ result.filter = taken.store p := by
  have added {fld : LfuField} (about : opt.field? = some fld)
      (adds : ∃ taken fresh p, Adds f fld taken fresh p ∧ result.filter = taken.store p)
      : ∃ fld taken fresh p, opt.field? = some fld ∧ Adds f fld taken fresh p
          ∧ result.filter = taken.store p := by
    obtain ⟨taken, fresh, p, adds, stored⟩ := adds
    exact ⟨fld, taken, fresh, p, about, adds, stored⟩
  unfold lfuFilterOpt at ran
  cases opt with
  | not =>
      cases ran
      exact .inl rfl
  | atime | mtime | ctime | btime =>
      cases ran
      exact .inr (added rfl (compileTime_effect succeeded))
  | links | stripeCount | mirrorCount | compCount | mdtCount =>
      cases ran
      exact .inr (added rfl (compileCount_effect succeeded))
  | size | blocks | devBlocks | stripeSize =>
      exact .inr (added rfl (compileSize_effect ran succeeded))
  | uid | gid | projid =>
      cases ran
      exact .inr (added rfl (compileId_effect succeeded))
  | type | layout | mdtHash =>
      cases ran
      exact .inr (added rfl (compileValue_effect succeeded))
  | perm | attrs =>
      simp only at ran
      split at ran
      · cases ran
        exact absurd succeeded (lfuBad_failed _ _ _ _)
      · cases ran
        exact .inr (added rfl (pushPred_effect succeeded))
  | ost =>
      cases ran
      exact .inr (added rfl (compileOst_effect succeeded))
  | pool | name =>
      cases ran
      exact .inr (added rfl (compilePattern_effect succeeded))
  | other =>
      cases ran
      cases succeeded

theorem lfuFilterOpt_effect {opt : LfuOpt} {arg : Bytes}
    (ran : lfuFilterOpt ns f opt arg = some result) (succeeded : result.rc = 0)
    : OptEffect f result.filter := by
  rcases lfuFilterOpt_adds ran succeeded with negated | ⟨fld, taken, fresh, p, _, adds, stored⟩
  · rw [negated]
    exact .negate
  · rw [stored]
    exact .added adds

/-- The union of what the predicates' fields demand. -/
def demandUnion (preds : List LfuPred) : UInt32 :=
  preds.foldl (fun needs p => needs ||| lfuFieldNeeds p.field) 0

/-- The predicate array is in bounds and the mask is exact. -/
structure WellCompiled (f : LfuFilter) : Prop where
  lower : 0 ≤ f.n
  upper : f.n ≤ lfuMaxPred
  needs : f.needs = demandUnion f.preds

/-- Storing into the slot just taken appends one predicate. -/
theorem store_preds {fld : LfuField} {taken : LfuFilter} {fresh : LfuPred}
    (wellCompiled : WellCompiled f) (new : lfuPredNew f fld = some (taken, fresh))
    (p : LfuPred)
    : (taken.store p).preds = f.preds ++ [p] := by
  obtain ⟨notFull, _, array, count, _, _⟩ := lfuPredNew_some new
  have lower := wellCompiled.lower
  have upper := wellCompiled.upper
  have slot : (taken.n - 1).toNat = f.n.toNat := by omega
  have below : f.n.toNat < f.p.toList.length := by
    simp only [Vector.length_toList]
    unfold lfuMaxPred at upper notFull
    omega
  have next : taken.n.toNat = f.n.toNat + 1 := by omega
  simp only [LfuFilter.preds, LfuFilter.store, array, slot, Vector.toList_setIfInBounds,
    List.set_set]
  rw [next, List.take_succ_eq_append_getElem (by simpa using below), List.getElem_set_self,
    List.take_set_of_le (Nat.le_refl _)]

theorem demandUnion_snoc (preds : List LfuPred) (p : LfuPred)
    : demandUnion (preds ++ [p]) = demandUnion preds ||| lfuFieldNeeds p.field := by
  simp [demandUnion]

theorem WellCompiled.opt (wellCompiled : WellCompiled f) {next : LfuFilter}
    (effect : OptEffect f next)
    : WellCompiled next := by
  cases effect with
  | negate => exact ⟨wellCompiled.lower, wellCompiled.upper, wellCompiled.needs⟩
  | @added fld taken fresh p adds =>
      obtain ⟨notFull, made, _, count, _, needs⟩ := lfuPredNew_some adds.new
      have lower := wellCompiled.lower
      have upper := wellCompiled.upper
      refine ⟨?_, ?_, ?_⟩
      · show 0 ≤ taken.n
        omega
      · show taken.n ≤ lfuMaxPred
        omega
      · have code : p.field = fld.code := by rw [adds.field, made]
        rw [store_preds wellCompiled adds.new, demandUnion_snoc, ← wellCompiled.needs, code]
        exact needs

theorem Compiled.wellCompiled (compiled : Compiled ns f) : WellCompiled f := by
  induction compiled with
  | empty => exact ⟨by decide, by decide, rfl⟩
  | opt before opt arg ran succeeded ih => exact ih.opt (lfuFilterOpt_effect ran succeeded)

theorem needsHas_or (left right : UInt32) (name : XattrName)
    : needsHas (left ||| right) name = (needsHas left name || needsHas right name) := by
  rw [Bool.eq_iff_iff]
  simp only [needsHas, or_and_mask, bne_iff_ne, ne_eq, UInt32.or_eq_zero_iff, Bool.or_eq_true,
    not_and_or]

theorem needsHas_demandUnion {preds : List LfuPred} {name : XattrName}
    : needsHas (demandUnion preds) name = preds.any (fun p => demands p name) := by
  induction preds using List.reverseRecOn with
  | nil => cases name <;> rfl
  | append_singleton rest p ih =>
      simp [demandUnion_snoc, needsHas_or, ih, demands]

/-- The mask of a compiled filter covers its predicates. -/
theorem Compiled.needsCover (compiled : Compiled ns f) : NeedsCover f := by
  intro p used name demanded
  rw [compiled.wellCompiled.needs, needsHas_demandUnion, List.any_eq_true]
  exact ⟨p, used, demanded⟩

-----------------------------------------------------------------------------------------
-- What the kernel checks
-----------------------------------------------------------------------------------------

theorem OptEffect.predsSound (wellCompiled : WellCompiled f) {next : LfuFilter}
    (effect : OptEffect f next) (sound : ∀ p ∈ f.preds, predSound p = true)
    : ∀ p ∈ next.preds, predSound p = true := by
  cases effect with
  | negate => exact sound
  | added adds =>
      intro q member
      rw [store_preds wellCompiled adds.new, List.mem_append] at member
      rcases member with old | added
      · exact sound q old
      · rw [List.mem_singleton.mp added]
        exact adds.sound

/-- Every predicate that successful options added passes the kernel's checks. -/
theorem Compiled.predsSound (compiled : Compiled ns f) : ∀ p ∈ f.preds, predSound p = true := by
  induction compiled with
  | empty => nofun
  | opt before opt arg ran succeeded ih =>
      exact (lfuFilterOpt_effect ran succeeded).predsSound before.wellCompiled ih

/-- An `--attrs` predicate tests the five attribute bits and no others. -/
def LfuPred.AttrsWithin (p : LfuPred) : Prop :=
  LfuField.ofCode? p.field = some .attrs →
    p.op = LfuOp.all.code ∧ p.val &&& lfuAttrAll.toUInt64 = p.val
      ∧ p.val2 &&& lfuAttrAll.toUInt64 = p.val2

theorem attrTable_within
    : ∀ entry ∈ attrTable, entry.2.2.toUInt64 &&& lfuAttrAll.toUInt64 = entry.2.2.toUInt64 := by
  decide

theorem or_within {left right mask : UInt64} (first : left &&& mask = left)
    (second : right &&& mask = right)
    : (left ||| right) &&& mask = left ||| right := by
  rw [← UInt64.toNat_inj] at first second ⊢
  simp only [UInt64.toNat_and, UInt64.toNat_or, Nat.and_or_distrib_right] at first second ⊢
  rw [first, second]

theorem attrTokens_within {tokens : List Bytes} {want nowant : UInt64}
    {found : UInt64 × UInt64} (parsed : attrTokens tokens want nowant = .ok found)
    (wanted : want &&& lfuAttrAll.toUInt64 = want)
    (unwanted : nowant &&& lfuAttrAll.toUInt64 = nowant)
    : found.1 &&& lfuAttrAll.toUInt64 = found.1
      ∧ found.2 &&& lfuAttrAll.toUInt64 = found.2 := by
  induction tokens generalizing want nowant with
  | nil =>
      unfold attrTokens at parsed
      split at parsed
      · cases parsed
      · cases parsed
        exact ⟨wanted, unwanted⟩
  | cons tok rest ih =>
      unfold attrTokens at parsed
      simp only at parsed
      split at parsed
      · rw [apply_ite (· = Except.ok found)] at parsed
        simp at parsed
      · rename_i entry named
        have inside := attrTable_within entry (List.mem_of_find?_eq_some named)
        split at parsed
        · exact ih parsed wanted (or_within unwanted inside)
        · exact ih parsed (or_within wanted inside) unwanted

/-- The bits an `--attrs` argument names. -/
theorem lfuParseAttrs_within {arg : Bytes} {found : UInt64 × UInt64}
    (parsed : lfuParseAttrs arg = .ok found)
    : found.1 &&& lfuAttrAll.toUInt64 = found.1
      ∧ found.2 &&& lfuAttrAll.toUInt64 = found.2 := by
  unfold lfuParseAttrs at parsed
  split at parsed
  · cases parsed
  · exact attrTokens_within parsed rfl rfl

theorem pushPred_preds (wellCompiled : WellCompiled f) {fld : LfuField} {op : LfuOp}
    {val val2 : UInt64} (succeeded : (pushPred f fld op val val2).rc = 0)
    : ∃ fresh : LfuPred, (pushPred f fld op val val2).filter.preds
        = f.preds ++ [{ fresh with op := op.code, val, val2 }] := by
  unfold pushPred at succeeded ⊢
  split at succeeded
  · cases succeeded
  · rename_i taken fresh new
    exact ⟨fresh, store_preds wellCompiled new _⟩

/-- The predicates that successful options add test only attribute bits that have names. -/
theorem Compiled.attrsWithin (compiled : Compiled ns f) : ∀ p ∈ f.preds, p.AttrsWithin := by
  induction compiled with
  | empty => nofun
  | @opt f result before opt arg ran succeeded ih =>
      have wellCompiled := before.wellCompiled
      by_cases about : opt = .attrs
      · subst about
        unfold lfuFilterOpt at ran
        simp only at ran
        split at ran
        · cases ran
          exact absurd succeeded (lfuBad_failed _ _ _ _)
        · rename_i val val2 parsed
          cases ran
          obtain ⟨fresh, preds⟩ := pushPred_preds wellCompiled succeeded
          obtain ⟨wanted, unwanted⟩ := lfuParseAttrs_within parsed
          intro p member
          rw [preds] at member
          rcases List.mem_append.mp member with old | new
          · exact ih p old
          · rw [List.mem_singleton.mp new]
            exact fun _ => ⟨rfl, wanted, unwanted⟩
      · rcases lfuFilterOpt_adds ran succeeded with
          negated | ⟨fld, taken, fresh, p, named, adds, stored⟩
        · rw [negated]
          exact ih
        · intro q member
          rw [stored, store_preds wellCompiled adds.new] at member
          rcases List.mem_append.mp member with old | new
          · exact ih q old
          · rw [List.mem_singleton.mp new]
            intro attrs
            obtain ⟨_, made, _⟩ := lfuPredNew_some adds.new
            rw [adds.field, made, LfuField.ofCode?_code, Option.some.injEq] at attrs
            subst attrs
            cases opt <;> first | exact absurd rfl about | exact nomatch named

/-- A known field demands something exactly when it is judged in the second pass. -/
theorem lfuFieldNeeds_ne_zero_iff {code : UInt8} (known : code < lfuFMax)
    : lfuFieldNeeds code ≠ 0 ↔ lfuFieldTier code = 1 := by
  have each : ∀ n : Fin 24,
      lfuFieldNeeds (UInt8.ofNat n) ≠ 0 ↔ lfuFieldTier (UInt8.ofNat n) = 1 := by
    decide
  have below : code.toNat < 24 := UInt8.lt_iff_toNat_lt.mp known
  simpa using each ⟨code.toNat, below⟩

theorem demandUnion_ne_zero_iff (preds : List LfuPred)
    : demandUnion preds ≠ 0 ↔ ∃ p ∈ preds, lfuFieldNeeds p.field ≠ 0 := by
  induction preds using List.reverseRecOn with
  | nil => simp [demandUnion]
  | append_singleton rest p ih =>
      rw [demandUnion_snoc, ne_eq, UInt32.or_eq_zero_iff, not_and_or, ← ne_eq, ih]
      simp only [List.mem_append, List.mem_singleton, or_and_right, exists_or, exists_eq_left]

/-- A filter built by successful options, with no negation left over, is one the kernel
accepts, and its mask is exactly what its predicates demand.
-/
theorem compiled_filter_sound (compiled : Compiled ns f) (checked : lfuFilterCheck f = 0)
    : lfuFilterValidate f = 0 ∧ 0 ≤ f.n ∧ f.n ≤ 32 ∧ f.needs = demandUnion f.preds
      ∧ (f.needs ≠ 0 ↔ ∃ p ∈ f.preds, lfuFieldTier p.field = 1) := by
  have wellCompiled := compiled.wellCompiled
  have sound := compiled.predsSound
  have settled : f.negPending = 0 := by
    unfold lfuFilterCheck at checked
    by_contra pending
    simp [pending] at checked
  have accepted : lfuFilterValidate f = 0 := by
    have inside : ¬ (f.n < 0 || f.n > lfuMaxPred) = true := by
      have lower := wellCompiled.lower
      have upper := wellCompiled.upper
      simp only [Bool.or_eq_true, decide_eq_true_eq]
      omega
    rw [lfuFilterValidate, if_neg inside, if_neg (not_not_intro settled),
      if_pos (List.all_eq_true.mpr sound)]
  refine ⟨accepted, wellCompiled.lower, wellCompiled.upper, wellCompiled.needs, ?_⟩
  rw [wellCompiled.needs, demandUnion_ne_zero_iff]
  refine exists_congr fun p => and_congr_right fun used => ?_
  exact lfuFieldNeeds_ne_zero_iff ((predSound_iff p).mp (sound p used)).1

/-- A sequence of options in which every call succeeds. -/
def compileAll (ns : NameService) : LfuFilter → List (LfuOpt × Bytes) → Option LfuFilter
  | f, [] => some f
  | f, (opt, arg) :: rest =>
      match lfuFilterOpt ns f opt arg with
      | none => none
      | some result => if result.rc = 0 then compileAll ns result.filter rest else none

theorem compileAll_compiled {opts : List (LfuOpt × Bytes)} {built : LfuFilter}
    (compiled : Compiled ns f) (ran : compileAll ns f opts = some built)
    : Compiled ns built := by
  induction opts generalizing f with
  | nil =>
      cases ran
      exact compiled
  | cons call rest ih =>
      obtain ⟨opt, arg⟩ := call
      unfold compileAll at ran
      split at ran
      · cases ran
      · rename_i result once
        split at ran
        · rename_i succeeded
          exact ih (.opt compiled opt arg once succeeded) ran
        · cases ran

/-- `! --pool fast --uid 5`: a pattern, a negation that found its predicate, and a value. -/
theorem compiled_filter_sound_negatedPool
    : ∃ built,
        compileAll noNames {} [(.not, []), (.pool, cstr "fast"), (.uid, cstr "5")] = some built
        ∧ lfuFilterValidate built = 0 ∧ built.needs ≠ 0 := by
  have runs
      : (compileAll noNames {} [(.not, []), (.pool, cstr "fast"), (.uid, cstr "5")]).any
          (fun built => lfuFilterCheck built = 0 && built.needs != 0) = true := by
    decide
  obtain ⟨built, ran, good⟩ := (Option.any_eq_true _ _).mp runs
  simp only [Bool.and_eq_true, decide_eq_true_eq, bne_iff_ne] at good
  have sound := compiled_filter_sound (compileAll_compiled .empty ran) good.1
  exact ⟨built, ran, sound.1, good.2⟩

/-- Both passes over one object, with the attributes somebody supplied. -/
def evaluate (env : Platform) (f : LfuFilter) (rec : LfuRec) (now : Int) (eas : Option LfuEas)
    : LfuMatch :=
  if lfuFilterTier0 f rec now then lfuFilterTier1 env f rec (lfuEaDecode eas) eas else .noMatch

/-- The value supplied for an attribute, if there is one. -/
def supplied (eas : Option LfuEas) (name : XattrName) : LfuEa := eas.bind (·.get name)

/-- Supplying no attributes at all is supplying absent ones. -/
theorem tier1Loop_none (env : Platform) (rec : LfuRec) (t1 : LfuTier1) (preds : List LfuPred)
    (unknown : Bool)
    : tier1Loop env rec t1 none preds unknown
      = tier1Loop env rec t1 (some {}) preds unknown := by
  have hit (p : LfuPred) : tier1Hit env p rec t1 none = tier1Hit env p rec t1 (some {}) := by
    unfold tier1Hit
    cases LfuField.ofCode? p.field with
    | none => rfl
    | some field => cases field <;> rfl
  induction preds generalizing unknown with
  | nil => rfl
  | cons p rest ih =>
      unfold tier1Loop
      rw [hit]
      simp only [ih]

theorem evaluate_answer (env : Platform) (f : LfuFilter) (rec : LfuRec) (now : Int)
    (eas : Option LfuEas)
    : evaluate env f rec now eas
      = if lfuFilterTier0 f rec now then
          .ofKleene (tier1Answer env f rec now (eas.getD {}))
        else
          .noMatch := by
  cases eas with
  | none =>
      have empty : lfuFilterTier1 env f rec (lfuEaDecode none) none
          = lfuFilterTier1 env f rec (lfuEaDecode (some {})) (some {}) :=
        tier1Loop_none env rec _ f.preds false
      rw [evaluate, empty, lfuFilterTier1_answer f now]
      rfl
  | some eas =>
      rw [evaluate, lfuFilterTier1_answer f now]
      rfl

/-- Two objects that agree on their records and on the demanded attributes get the same
verdict, whatever else was supplied for either.
-/
theorem demand_mask_sufficient (compiled : Compiled ns f) (env : Platform) (now : Int)
    {rec other : LfuRec} {eas others : Option LfuEas} (same : SameFields rec other)
    (agree : ∀ name, needsHas f.needs name = true → supplied eas name = supplied others name)
    : evaluate env f rec now eas = evaluate env f other now others := by
  have values (given : Option LfuEas) (name : XattrName)
      : (given.getD {}).get name = supplied given name := by
    cases given with
    | none => cases name <;> rfl
    | some _ => rfl
  have second : tier1Answer env f rec now (eas.getD {})
      = tier1Answer env f other now (others.getD {}) := by
    rw [tier1Answer_alike same fun p _ => ⟨rfl, fun _ _ => rfl⟩]
    refine tier1Answer_congr compiled.needsCover fun name demanded => ?_
    rw [values, values, agree name demanded]
  rw [evaluate_answer, evaluate_answer, lfuFilterTier0_record same, second]

/-- `--stripe-count` looks at the layout alone: a size attribute, or no layout and nothing
else, changes nothing.
-/
theorem demand_mask_sufficient_stripeCount
    : ∃ built,
        compileAll noNames {} [(.stripeCount, cstr "2")] = some built
        ∧ evaluate exactNames built {} 0 (some { som := some [1, 2, 3] })
          = evaluate exactNames built {} 0 none := by
  have runs
      : (compileAll noNames {} [(.stripeCount, cstr "2")]).any
          (fun built => !needsHas built.needs .som) = true := by
    decide
  obtain ⟨built, ran, unasked⟩ := (Option.any_eq_true _ _).mp runs
  refine ⟨built, ran, demand_mask_sufficient (compileAll_compiled .empty ran) exactNames 0
    ⟨rfl, rfl, rfl, rfl, rfl, rfl, rfl, rfl, rfl, rfl, rfl, rfl⟩ ?_⟩
  intro name demanded
  cases name with
  | som => simp [demanded] at unasked
  | lov | lmv | link => rfl

end LfuScan.Filter
