import LfuScan.Filter.Conjunction

/-! What a filter means: the three-valued conjunction of its predicates, each judged on the
record and on the attributes its field demands. The two evaluation loops compute the two
halves of that conjunction.
-/

namespace LfuScan.Filter

open LfuScan.Lustre LfuScan.Foundations

/-- What one predicate says about an object with these attributes. A code no switch
handles constrains nothing.
-/
def predAnswer (env : Platform) (rec : LfuRec) (now : Int) (eas : LfuEas) (p : LfuPred)
    : Kleene :=
  if lfuFieldTier p.field = 0 then
    match tier0Hit p rec now with
    | none => .yes
    | some hit => .ofBool (negated p hit)
  else
    match tier1Hit env p rec (lfuEaDecode (some eas)) (some eas) with
    | .skip => .yes
    | .undecided => .unknown
    | .hit found => .ofBool (negated p found)

/-- The meaning of a filter on an object. -/
def filterAnswer (env : Platform) (f : LfuFilter) (rec : LfuRec) (now : Int) (eas : LfuEas)
    : Kleene :=
  .all (f.preds.map (predAnswer env rec now eas))

variable {env : Platform} {rec : LfuRec} {now : Int} {eas : LfuEas}

/-- The loops take a predicate at what it says about the attributes that were decoded. -/
theorem loopAnswer_eq
    : loopAnswer env rec now (lfuEaDecode (some eas)) (some eas) = predAnswer env rec now eas :=
  rfl

/-- The answers of the second pass. -/
def tier1Answer (env : Platform) (f : LfuFilter) (rec : LfuRec) (now : Int) (eas : LfuEas)
    : Kleene :=
  .all ((f.preds.filter (fun p => !inTier0 p)).map (predAnswer env rec now eas))

theorem lfuFilterTier1_answer (f : LfuFilter) (now : Int)
    : lfuFilterTier1 env f rec (lfuEaDecode (some eas)) (some eas)
      = .ofKleene (tier1Answer env f rec now eas) := by
  rw [lfuFilterTier1, tier1Loop_conjoins now, loopAnswer_eq]
  rfl

/-- Both passes together are the filter. -/
theorem filterAnswer_split (f : LfuFilter)
    : filterAnswer env f rec now eas
      = (Kleene.ofBool (lfuFilterTier0 f rec now)).and (tier1Answer env f rec now eas) := by
  rw [filterAnswer, Kleene.all_partition _ inTier0, ← loopAnswer_eq, ← tier0Loop_conjoins]
  rfl

/-- The predicate depends on the attribute. -/
def demands (p : LfuPred) (name : XattrName) : Bool := needsHas (lfuFieldNeeds p.field) name

theorem lfuResolveSize_congr {t1 other : LfuTier1} {wantBlocks : Bool}
    (som : t1.toTier1Som = other.toTier1Som) (lov : t1.toTier1Lov = other.toTier1Lov)
    : lfuResolveSize rec t1 wantBlocks = lfuResolveSize rec other wantBlocks := by
  unfold lfuResolveSize
  rw [som, lov]

theorem tier1Hit_congr {p : LfuPred} {other : LfuEas}
    (agree : ∀ name, demands p name = true → eas.get name = other.get name)
    : tier1Hit env p rec (lfuEaDecode (some eas)) (some eas)
      = tier1Hit env p rec (lfuEaDecode (some other)) (some other) := by
  have som := agree .som
  have lov := agree .lov
  have lmv := agree .lmv
  have link := agree .link
  unfold demands lfuFieldNeeds at som lov lmv link
  unfold tier1Hit
  cases found : LfuField.ofCode? p.field with
  | none => rfl
  | some field =>
      simp only [found, LfuEas.get] at som lov lmv link
      cases field with
      | size | blocks =>
          have sameSom : (lfuEaDecode (some eas)).toTier1Som
              = (lfuEaDecode (some other)).toTier1Som := by
            simp only [lfuEaDecode, som (by decide)]
          have sameLov : (lfuEaDecode (some eas)).toTier1Lov
              = (lfuEaDecode (some other)).toTier1Lov := by
            simp only [lfuEaDecode, lov (by decide)]
          simp only [lfuResolveSize_congr sameSom sameLov]
      | stripeCount | stripeSize | pool | layout | mirrorCount | compCount =>
          simp only [lfuEaDecode, lov (by decide)]
      | ost => simp only [Option.any_some, lov (by decide)]
      | mdtCount | mdtHash => simp only [lfuEaDecode, lmv (by decide)]
      | name => simp only [Option.any_some, link (by decide)]
      | _ => rfl

theorem predAnswer_congr {p : LfuPred} {other : LfuEas}
    (agree : ∀ name, demands p name = true → eas.get name = other.get name)
    : predAnswer env rec now eas p = predAnswer env rec now other p := by
  unfold predAnswer
  rw [tier1Hit_congr agree]

/-- Every predicate's attributes are in the demand mask. -/
def NeedsCover (f : LfuFilter) : Prop :=
  ∀ p ∈ f.preds, ∀ name, demands p name = true → needsHas f.needs name = true

/-- With a covering mask, attributes outside it make no difference. -/
theorem tier1Answer_congr {f : LfuFilter} {other : LfuEas} (cover : NeedsCover f)
    (agree : ∀ name, needsHas f.needs name = true → eas.get name = other.get name)
    : tier1Answer env f rec now eas = tier1Answer env f rec now other := by
  unfold tier1Answer
  congr 1
  apply List.map_congr_left
  intro p member
  apply predAnswer_congr
  intro name demanded
  exact agree name (cover p (List.mem_filter.mp member).1 name demanded)

/-- A filter that demands nothing has no predicate for the second pass to judge. -/
theorem tier1Answer_of_needs_zero {f : LfuFilter} (cover : NeedsCover f)
    (nothing : f.needs = 0)
    : tier1Answer env f rec now eas = .yes := by
  rw [tier1Answer, Kleene.all_eq_yes_iff]
  intro answer member
  obtain ⟨p, chosen, rfl⟩ := List.mem_map.mp member
  obtain ⟨used, later⟩ := List.mem_filter.mp chosen
  have undemanded : ∀ name, demands p name = false := by
    intro name
    have bare : needsHas f.needs name = false := by
      rw [nothing]
      cases name <;> rfl
    cases demanded : demands p name with
    | false => rfl
    | true => exact (cover p used name demanded).symm.trans bare
  have skipped : tier1Hit env p rec (lfuEaDecode (some eas)) (some eas) = .skip := by
    have lov := undemanded .lov
    have lmv := undemanded .lmv
    have link := undemanded .link
    unfold demands lfuFieldNeeds at lov lmv link
    unfold tier1Hit
    cases found : LfuField.ofCode? p.field with
    | none => rfl
    | some field =>
        simp only [found] at lov lmv link
        cases field with
        | size | blocks | stripeCount | stripeSize | ost | pool | layout | mirrorCount
        | compCount => exact absurd lov (by decide)
        | mdtCount | mdtHash => exact absurd lmv (by decide)
        | name => exact absurd link (by decide)
        | _ => rfl
  have tier : lfuFieldTier p.field ≠ 0 := by
    simpa [inTier0] using later
  rw [predAnswer, if_neg tier, skipped]

/-- The two records agree on everything a predicate reads. -/
structure SameFields (left right : LfuRec) : Prop where
  mode : left.mode = right.mode
  nlink : left.nlink = right.nlink
  uid : left.uid = right.uid
  gid : left.gid = right.gid
  projid : left.projid = right.projid
  flags : left.flags = right.flags
  size : left.size = right.size
  blocks : left.blocks = right.blocks
  atime : left.atime = right.atime
  mtime : left.mtime = right.mtime
  ctime : left.ctime = right.ctime
  crtime : left.crtime = right.crtime

theorem tier0Hit_record {other : LfuRec} (same : SameFields rec other) (p : LfuPred)
    : tier0Hit p rec now = tier0Hit p other now := by
  simp only [tier0Hit, same.mode, same.nlink, same.uid, same.gid, same.projid, same.flags,
    same.blocks, same.atime, same.mtime, same.ctime, same.crtime]

theorem tier1Hit_record {other : LfuRec} (same : SameFields rec other) (p : LfuPred)
    (t1 : LfuTier1) (eas : Option LfuEas)
    : tier1Hit env p rec t1 eas = tier1Hit env p other t1 eas := by
  simp only [tier1Hit, lfuResolveSize, same.mode, same.size, same.blocks]

theorem predAnswer_record {other : LfuRec} (same : SameFields rec other) (p : LfuPred)
    : predAnswer env rec now eas p = predAnswer env other now eas p := by
  simp only [predAnswer, tier0Hit_record same, tier1Hit_record same]

theorem lfuFilterTier0_record {other : LfuRec} (same : SameFields rec other) (f : LfuFilter)
    : lfuFilterTier0 f rec now = lfuFilterTier0 f other now := by
  unfold lfuFilterTier0
  induction f.preds with
  | nil => rfl
  | cons p rest ih => simp only [tier0Loop, tier0Hit_record same, ih]

/-- The predicate matches its pattern against a name. -/
def LfuPred.globs (p : LfuPred) : Bool :=
  match LfuField.ofCode? p.field with
  | some .pool | some .name => true
  | _ => false

/-- The two platforms agree on the predicate's pattern, if it has one, and on the byte
order.
-/
structure SameGlob (p : LfuPred) (left right : Platform) : Prop where
  order : left.order = right.order
  glob : p.globs = true → ∀ str, left.glob p.pattern str = right.glob p.pattern str

theorem tier1Hit_platform {p : LfuPred} {other : Platform} (same : SameGlob p env other)
    (t1 : LfuTier1) (eas : Option LfuEas)
    : tier1Hit env p rec t1 eas = tier1Hit other p rec t1 eas := by
  have glob (globs : p.globs = true) : lfuGlob env p.pattern = lfuGlob other p.pattern :=
    funext (same.glob globs)
  unfold LfuPred.globs at glob
  unfold tier1Hit
  cases found : LfuField.ofCode? p.field with
  | none => rfl
  | some field =>
      rw [found] at glob
      cases field with
      | pool => simp only [glob rfl]
      | name => simp only [lfuLinkeaName_congr same.order (glob rfl)]
      | _ => rfl

theorem predAnswer_platform {p : LfuPred} {other : Platform} (same : SameGlob p env other)
    : predAnswer env rec now eas p = predAnswer other rec now eas p := by
  simp only [predAnswer, tier1Hit_platform same]

/-- The second pass has one answer for two views of an object on two platforms. -/
theorem tier1Answer_alike {f : LfuFilter} {other : LfuRec} {platform : Platform}
    (same : SameFields rec other) (alike : ∀ p ∈ f.preds, SameGlob p env platform)
    : tier1Answer env f rec now eas = tier1Answer platform f other now eas := by
  unfold tier1Answer
  congr 1
  apply List.map_congr_left
  intro p member
  rw [predAnswer_record same, predAnswer_platform (alike p (List.mem_filter.mp member).1)]

end LfuScan.Filter
