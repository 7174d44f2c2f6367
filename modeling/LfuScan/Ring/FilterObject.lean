import LfuScan.Ring.Device

/-! The filter applied to one object in the kernel: tier 0 on the record, the demanded
attributes through the iterator, then tier 1.
-/

namespace LfuScan.Ring

open LfuScan.Lustre LfuScan.Filter LfuScan.Foundations

/-- What `rec(DORA_XATTR)` answers: a value, and whether it came from outside the inode, or
a negative error.
-/
inductive XaReply
  | value (bytes : Bytes) (external : Bool)
  | error (rc : Int)
deriving DecidableEq, Repr

/-- What one demanded attribute turns into: the value for the evaluator, whether it is
external, and the return code.
-/
structure XaGot where
  ea : LfuEa
  external : Bool
  rc : Int
  st : LfuRingStats

def lfuXaGet (st : LfuRingStats) (reply : XaReply) : XaGot :=
  match reply with
  | .value bytes external => { ea := some bytes, external, rc := 1, st }
  | .error rc =>
      if rc == -enodata then
        { ea := none, external := false, rc := 0, st }
      else if rc == -erange then
        {
          ea := none
          external := false
          rc := -erange
          st := { st with rsXaToolarge := st.rsXaToolarge + 1 }
        }
      else if rc == -eopnotsupp then
        { ea := none, external := false, rc, st }
      else
        {
          ea := none
          external := false
          rc := 0
          st := { st with rsXaErr := st.rsXaErr + 1 }
        }

/-- The attributes gathered so far: their values, the `ext` and `toolarge` flags, the
counters, and the attributes the iterator was asked for.
-/
structure Gathered where
  eas : LfuEas := {}
  ext : Bool := false
  toolarge : Bool := false
  st : LfuRingStats
  asked : List XattrName := []

def LfuEas.put (eas : LfuEas) (name : XattrName) (ea : LfuEa) : LfuEas :=
  match name with
  | .som => { eas with som := ea }
  | .lov => { eas with lov := ea }
  | .lmv => { eas with lmv := ea }
  | .link => { eas with link := ea }

/-- Take over one attribute. -/
def Gathered.add (g : Gathered) (name : XattrName) (got : XaGot) : Gathered :=
  {
    eas := LfuEas.put g.eas name got.ea
    ext := g.ext || got.external
    toolarge := g.toolarge || got.rc == -erange
    st := got.st
    asked := g.asked ++ [name]
  }

/-- What the `-EOPNOTSUPP` return leaves: the attribute it was for has been asked for, too. -/
structure Refused where
  rc : Int
  st : LfuRingStats
  asked : List XattrName

/-- One `if (needs & LFU_NEED_*)` block; an error is the `-EOPNOTSUPP` return. -/
def gatherOne (needs : UInt32) (reply : XattrName → XaReply) (name : XattrName)
    (g : Gathered)
    : Except Refused Gathered :=
  if !needsHas needs name then
    .ok g
  else
    let got := lfuXaGet g.st (reply name)
    if got.rc == -eopnotsupp then
      .error { rc := got.rc, st := got.st, asked := g.asked ++ [name] }
    else
      .ok (g.add name got)

/-- The four blocks in source order. -/
def gather (needs : UInt32) (reply : XattrName → XaReply) (st : LfuRingStats)
    : Except Refused Gathered := do
  let g ← gatherOne needs reply .som { st }
  let g ← gatherOne needs reply .lov g
  let g ← gatherOne needs reply .lmv g
  gatherOne needs reply .link g

/-- The result of filtering one object: the verdict or the error that ends the scan, the
advanced counters, the record with its decoded attributes, the wire bits, and which
attributes were read.
-/
structure FilterObjectResult where
  verdict : Except Int LfuMatch
  st : LfuRingStats
  record : LfuRec
  lfuBits : UInt32
  asked : List XattrName

/-- Decode and tier 1, once the demanded attributes are in hand. -/
def judgeGathered (env : Platform) (f : LfuFilter) (rec : LfuRec) (g : Gathered)
    : FilterObjectResult :=
  let eas := { g.eas with external := g.ext }
  let bits := if g.ext then lfuWrXaExternal else 0
  let t1 := lfuEaDecode (some eas)
  let record := { rec with t1, t1Valid := true }
  -- an attribute that did not fit leaves the object undecided, whatever else it says
  let m := if g.toolarge then .unknown else lfuFilterTier1 env f record t1 (some eas)
  match m with
  | .noMatch =>
      {
        verdict := .ok m
        st := { g.st with rsFiltered1 := g.st.rsFiltered1 + 1 }
        record
        lfuBits := bits
        asked := g.asked
      }
  | .unknown =>
      {
        verdict := .ok m
        st := { g.st with rsUnknown := g.st.rsUnknown + 1 }
        record
        lfuBits := bits ||| lfuWrUnknown
        asked := g.asked
      }
  | .matched => { verdict := .ok m, st := g.st, record, lfuBits := bits, asked := g.asked }

/-- The attributes as tier 1 sees them. -/
def Gathered.attributes (g : Gathered) : LfuEas := { g.eas with external := g.ext }

/-- The record as tier 1 sees it. -/
def Gathered.decode (g : Gathered) (rec : LfuRec) : LfuRec :=
  { rec with t1 := lfuEaDecode (some g.attributes), t1Valid := true }

def gatheredMatch (env : Platform) (f : LfuFilter) (rec : LfuRec) (g : Gathered) : LfuMatch :=
  if g.toolarge then
    .unknown
  else
    lfuFilterTier1 env f (g.decode rec) (g.decode rec).t1 (some g.attributes)

/-- The verdict decides what is counted and marked, and nothing else. -/
theorem judgeGathered_eq (env : Platform) (f : LfuFilter) (rec : LfuRec) (g : Gathered)
    : judgeGathered env f rec g
      = let m := gatheredMatch env f rec g
        {
          verdict := .ok m
          st :=
            {
              g.st with
              rsFiltered1 := g.st.rsFiltered1 + if m = .noMatch then 1 else 0
              rsUnknown := g.st.rsUnknown + if m = .unknown then 1 else 0
            }
          record := g.decode rec
          lfuBits :=
            (if g.ext then lfuWrXaExternal else 0) ||| if m = .unknown then lfuWrUnknown else 0
          asked := g.asked
        } := by
  unfold judgeGathered
  dsimp only
  split <;>
    · rename_i verdict
      rw [show gatheredMatch env f rec g = _ from verdict, verdict]
      simp [Gathered.decode, Gathered.attributes]

def lfuFilterObject (env : Platform) (r : LfuRing) (reply : XattrName → XaReply)
    (rec : LfuRec) (now : Int)
    : FilterObjectResult :=
  match r.filter with
  | none => { verdict := .ok .matched, st := r.st, record := rec, lfuBits := 0, asked := [] }
  | some rf =>
      let f := rf.rfFilter
      if !lfuFilterTier0 f rec now then
        {
          verdict := .ok .noMatch
          st := { r.st with rsFiltered0 := r.st.rsFiltered0 + 1 }
          record := rec
          lfuBits := 0
          asked := []
        }
      else if lfuFilterNeeds f == 0 then
        { verdict := .ok .matched, st := r.st, record := rec, lfuBits := 0, asked := [] }
      else
        match gather (lfuFilterNeeds f) reply r.st with
        | .error refused =>
            {
              verdict := .error refused.rc
              st := refused.st
              record := rec
              lfuBits := 0
              asked := refused.asked
            }
        | .ok g => judgeGathered env f rec g

/-- The ways out of `lfu_filter_object`: passed on as it is, rejected by its inode, stuck on an
attribute, or judged with its attributes.
-/
inductive FilterObjectExit (env : Platform) (r : LfuRing) (reply : XattrName → XaReply)
    (rec : LfuRec)
    : FilterObjectResult → Prop
  | passed
    : FilterObjectExit env r reply rec
        { verdict := .ok .matched, st := r.st, record := rec, lfuBits := 0, asked := [] }
  | rejected
    : FilterObjectExit env r reply rec
        {
          verdict := .ok .noMatch
          st := { r.st with rsFiltered0 := r.st.rsFiltered0 + 1 }
          record := rec
          lfuBits := 0
          asked := []
        }
  | stuck (needs : UInt32) (refused : Refused)
    (failed : gather needs reply r.st = .error refused)
    : FilterObjectExit env r reply rec
        {
          verdict := .error refused.rc
          st := refused.st
          record := rec
          lfuBits := 0
          asked := refused.asked
        }
  | judged (needs : UInt32) (f : LfuFilter) (g : Gathered)
    (went : gather needs reply r.st = .ok g)
    : FilterObjectExit env r reply rec (judgeGathered env f rec g)

theorem lfuFilterObject_exit (env : Platform) (r : LfuRing) (reply : XattrName → XaReply)
    (rec : LfuRec) (now : Int)
    : FilterObjectExit env r reply rec (lfuFilterObject env r reply rec now) := by
  unfold lfuFilterObject
  split
  · exact .passed
  · dsimp only
    split
    · exact .rejected
    split
    · exact .passed
    split
    · rename_i failed
      exact .stuck _ _ failed
    · rename_i went
      exact .judged _ _ _ went

end LfuScan.Ring
