import LfuScan.Filter.Decode

/-! The evaluator: the half of the filter that runs per object, in userspace and in the
kernel from one source.
-/

namespace LfuScan.Filter

open LfuScan.Lustre

/-- The portability seams of the evaluator: the glob matcher (`fnmatch` or `glob_match`)
and the byte order of the host.
-/
structure Platform where
  glob : Bytes → Bytes → Bool
  order : ByteOrder

/-- A platform whose glob is equality. -/
def exactNames : Platform := { glob := fun pat str => pat == str, order := .little }

def lfuGlob (env : Platform) (pat str : Bytes) : Bool := env.glob pat str

def lfuFilterAttrsUsed (f : LfuFilter) : UInt32 :=
  f.preds.foldl
    (fun used p =>
      if p.field == LfuField.attrs.code then used ||| (p.val ||| p.val2).toUInt32 else used)
    0

/-- The checks `lfu_filter_validate` makes on one predicate. -/
def predSound (p : LfuPred) : Bool :=
  !(p.field ≥ lfuFMax || p.op ≥ lfuOpMax)
    && !(p.neg > 1)
    && !(p.nlist < 0 || p.nlist > lfuMaxList)
    && p.str.toList.contains 0

def lfuFilterValidate (f : LfuFilter) : Int :=
  if f.n < 0 || f.n > lfuMaxPred then
    -1
  else if f.negPending ≠ 0 then
    -1
  else if f.preds.all predSound then
    0
  else
    -1

def lfuCmp (p : LfuPred) (value : UInt64) : Bool :=
  match LfuOp.ofCode? p.op with
  | some .gt => value > p.val
  | some .lt => value < p.val
  | some .eq =>
      if p.val2 != 0 then value ≤ p.val && value + p.val2 > p.val else value == p.val
  | some .all => value &&& p.val == p.val && value &&& p.val2 == 0
  | some .any => value &&& p.val != 0
  | some .list => p.indices.any (fun index => index.toUInt64 == value)
  | _ => false

/-- The age of a timestamp, zero for one in the future. -/
def lfuAge (now : Int) (stamp : UInt32) : UInt64 :=
  if now > stamp.toNat then UInt64.ofNat (now - stamp.toNat).toNat else 0

def lfuCmpAge (p : LfuPred) (now : Int) (stamp : UInt32) : Bool :=
  let age := lfuAge now stamp
  if LfuOp.ofCode? p.op == some .eq then
    age ≥ p.val && age < p.val + p.val2
  else
    lfuCmp p age

def lfuSIfmt : UInt16 := 0o170000
def lfuSIfreg : UInt16 := 0o100000

/-- The switch of the tier-0 loop; `none` is its `default: continue`. -/
def tier0Hit (p : LfuPred) (rec : LfuRec) (now : Int) : Option Bool :=
  match LfuField.ofCode? p.field with
  | some .atime => some (lfuCmpAge p now rec.atime)
  | some .mtime => some (lfuCmpAge p now rec.mtime)
  | some .ctime => some (lfuCmpAge p now rec.ctime)
  | some .btime => some (lfuCmpAge p now rec.crtime)
  | some .uid => some (lfuCmp p rec.uid.toUInt64)
  | some .gid => some (lfuCmp p rec.gid.toUInt64)
  | some .type => some ((rec.mode &&& lfuSIfmt).toUInt64 == p.val)
  | some .perm => some (lfuCmp p (rec.mode &&& 0o7777).toUInt64)
  | some .links => some (lfuCmp p rec.nlink.toUInt64)
  | some .projid => some (lfuCmp p rec.projid.toUInt64)
  | some .attrs => some (lfuCmp p rec.flags.toUInt64)
  | some .devBlocks => some (lfuCmp p (rec.blocks * 512))
  | _ => none

/-- `if (p->neg) hit = !hit`. -/
def negated (p : LfuPred) (hit : Bool) : Bool := if p.neg != 0 then !hit else hit

def tier0Loop (rec : LfuRec) (now : Int) : List LfuPred → Bool
  | [] => true
  | p :: rest =>
      if lfuFieldTier p.field != 0 then
        tier0Loop rec now rest
      else
        match tier0Hit p rec now with
        | none => tier0Loop rec now rest
        | some hit => if !negated p hit then false else tier0Loop rec now rest

def lfuFilterTier0 (f : LfuFilter) (rec : LfuRec) (now : Int) : Bool :=
  tier0Loop rec now f.preds

-----------------------------------------------------------------------------------------
-- Tier 1
-----------------------------------------------------------------------------------------

/-- The size an MDT can vouch for, or `none` for the unknown outcome. -/
def lfuResolveSize (rec : LfuRec) (t1 : LfuTier1) (wantBlocks : Bool) : Option UInt64 :=
  let own := if wantBlocks then rec.blocks * 512 else rec.size
  if rec.mode &&& lfuSIfmt != lfuSIfreg then
    some own
  else if t1.haveLov && t1.pattern &&& lovPatternFReleased != 0 then
    some own
  else if !(t1.haveLov && t1.stripeCount > 0) then
    some own
  else if t1.haveSom && t1.somValid &&& (somFlStrict ||| somFlLazy) != 0 then
    some (if wantBlocks then t1.somBlocks * 512 else t1.somSize)
  else
    none

/-- The object loop over one component: `left` entries from index `s` on. -/
def objectsOnOst (p : LfuPred) (c : Bytes) (hdr : Nat) : Nat → Nat → Bool
  | 0, _ => false
  | left + 1, s =>
      let o := hdr + s * lovOstDataV1Size
      if o + lovOstDataV1Size > c.length then
        false
      else if lfuCmp p (lfuLe32 c (o + 20)).toUInt64 then
        true
      else
        objectsOnOst p c hdr left (s + 1)

/-- The body of the component loop: does one component name a listed OST? -/
def componentOnOst (p : LfuPred) (c : Bytes) : Bool :=
  if c.length < lovMdsMdV1Size then
    false
  else
    let pattern := lfuLe32 c 4
    let count := lfuLe16 c 28
    match lovHeaderSize? (lfuLe32 c 0) with
    | none => false
    | some hdr =>
        if pattern &&& (lovPatternMdt ||| lovPatternFReleased) != 0 then
          false
        else
          objectsOnOst p c hdr count.toNat 0

/-- The component loop of a composite layout, from table index `i` on. -/
def componentsOnOst (p : LfuPred) (b : Bytes) : Nat → Nat → Bool
  | 0, _ => false
  | left + 1, i =>
      let eo := lovCompMdV1Size + i * lovCompMdEntryV1Size
      if eo + lovCompMdEntryV1Size > b.length then
        false
      else
        match lovComponent? b eo with
        | none => componentsOnOst p b left (i + 1)
        | some c => if componentOnOst p c then true else componentsOnOst p b left (i + 1)

def lfuLovOnOst (ea : LfuEa) (p : LfuPred) : Bool :=
  match ea with
  | none => false
  | some b =>
      if b.length < 4 then
        false
      else if lfuLe32 b 0 == lovMagicCompV1 then
        if b.length < lovCompMdV1Size then
          false
        else
          componentsOnOst p b (lfuLe16 b 14).toNat 0
      else
        componentOnOst p b

/-- The link loop: `left` entries from offset `off` on, inside the first `lehLen` bytes. -/
def linkeaLoop (env : Platform) (p : LfuPred) (b : Bytes) (lehLen : Nat) : Nat → Nat → Bool
  | 0, _ => false
  | left + 1, off =>
      if off + linkEaEntrySize > lehLen then
        false
      else
        let reclen := ((byteAt b off).toUInt16 <<< 8 ||| (byteAt b (off + 1)).toUInt16).toNat
        if reclen ≤ linkEaEntrySize || off + reclen > lehLen then
          false
        else
          -- the name is cut at the 255 bytes its buffer holds, and ends at the first NUL
          let nlen := min (reclen - linkEaEntrySize) 255
          let name := ((b.drop (off + linkEaEntrySize)).take nlen).takeWhile (· != 0)
          if lfuGlob env p.pattern name then
            true
          else
            linkeaLoop env p b lehLen left (off + reclen)

def lfuLinkeaName (env : Platform) (ea : LfuEa) (p : LfuPred) : Bool :=
  match ea with
  | none => false
  | some b =>
      if b.length < linkEaHeaderSize then
        false
      else
        let magic := lfuHost32 env.order b 0
        let reccount := lfuHost32 env.order b 4
        let lehLen := lfuHost64 env.order b 8
        if magic == linkEaMagic then
          linkeaLoop env p b (min lehLen.toNat b.length) reccount.toNat linkEaHeaderSize
        else if magic == bswap32 linkEaMagic then
          linkeaLoop env p b (min (bswap64 lehLen).toNat b.length) (bswap32 reccount).toNat
            linkEaHeaderSize
        else
          false

/-- What the switch of the tier-1 loop finds for one predicate. -/
inductive Tier1Hit
  | skip
  | undecided
  | hit (found : Bool)
deriving DecidableEq, Repr

def tier1Hit (env : Platform) (p : LfuPred) (rec : LfuRec) (t1 : LfuTier1)
    (eas : Option LfuEas)
    : Tier1Hit :=
  let sized (wantBlocks : Bool) : Tier1Hit :=
    match lfuResolveSize rec t1 wantBlocks with
    | none => .undecided
    | some value => .hit (lfuCmp p value)
  match LfuField.ofCode? p.field with
  | some .size => sized false
  | some .blocks => sized true
  | some .stripeCount => .hit (t1.haveLov && lfuCmp p t1.stripeCount.toUInt64)
  | some .stripeSize => .hit (t1.haveLov && lfuCmp p t1.stripeSize.toUInt64)
  | some .mirrorCount => .hit (t1.haveLov && lfuCmp p t1.mirrorCount.toUInt64)
  | some .compCount => .hit (t1.haveLov && lfuCmp p t1.compCount.toUInt64)
  | some .layout => .hit (t1.haveLov && lfuCmp p t1.pattern.toUInt64)
  | some .pool =>
      .hit (t1.haveLov && lfuGlob env p.pattern (t1.pool.toList.takeWhile (· != 0)))
  | some .ost => .hit (eas.any (fun eas => lfuLovOnOst eas.lov p))
  | some .mdtCount => .hit (t1.haveLmv && lfuCmp p t1.lmvCount.toUInt64)
  | some .mdtHash =>
      .hit (t1.haveLmv && lfuCmp p (t1.lmvHash &&& lmvHashTypeMask).toUInt64)
  | some .name => .hit (eas.any (fun eas => lfuLinkeaName env eas.link p))
  | _ => .skip

/-- The tier-1 loop, with the `unknown` flag it carries past later predicates. -/
def tier1Loop (env : Platform) (rec : LfuRec) (t1 : LfuTier1) (eas : Option LfuEas)
    : List LfuPred → Bool → LfuMatch
  | [], unknown => if unknown then .unknown else .matched
  | p :: rest, unknown =>
      if lfuFieldTier p.field != 1 then
        tier1Loop env rec t1 eas rest unknown
      else
        match tier1Hit env p rec t1 eas with
        | .skip => tier1Loop env rec t1 eas rest unknown
        | .undecided => tier1Loop env rec t1 eas rest true
        | .hit found =>
            if !negated p found then .noMatch else tier1Loop env rec t1 eas rest unknown

def lfuFilterTier1 (env : Platform) (f : LfuFilter) (rec : LfuRec) (t1 : LfuTier1)
    (eas : Option LfuEas)
    : LfuMatch :=
  tier1Loop env rec t1 eas f.preds false

end LfuScan.Filter
