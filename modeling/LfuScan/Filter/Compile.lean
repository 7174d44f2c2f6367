import LfuScan.Foundations.CString
import LfuScan.Filter.Predicate

/-! The filter compiler: `lfs find` options in, a filter out. Values are parsed with the C
library's own conversions, in 64-bit arithmetic that wraps.
-/

namespace LfuScan.Filter

open LfuScan.Lustre LfuScan.Foundations

/-- The filter options; `other` is any option code that belongs to somebody else. -/
inductive LfuOpt
  | atime | mtime | ctime | btime
  | uid | gid | type | perm | links
  | projid | attrs | devBlocks
  | size | blocks
  | stripeCount | stripeSize
  | ost | pool | layout
  | mirrorCount | compCount
  | mdtCount | mdtHash | name
  | not
  | other
deriving DecidableEq, Repr

/-- What the compiler prints on standard error. -/
inductive Complaint
  | tooManyPredicates
  | automount
  | listTooLong
  | bad (opt : String) (arg : Bytes)
deriving DecidableEq, Repr

def Complaint.text : Complaint → Bytes
  | .tooManyPredicates => cstr "lfu: too many filter predicates (max 32)\n"
  | .automount => cstr "lfu: --attrs Automount is not derivable from a device scan\n"
  | .listTooLong => cstr "lfu: index list longer than 64\n"
  | .bad opt arg =>
      cstr "lfu: bad " ++ cstr opt ++ cstr " value '" ++ arg ++ cstr "'\n"

/-- The local user and group databases. -/
structure NameService where
  getpwnam : Bytes → Option UInt32
  getgrnam : Bytes → Option UInt32

/-- Databases that know nobody. -/
def noNames : NameService := { getpwnam := fun _ => none, getgrnam := fun _ => none }

-----------------------------------------------------------------------------------------
-- Value parsing
-----------------------------------------------------------------------------------------

/-- The leading sign: more than, less than, or equal. -/
def lfuParseSign (arg : Bytes) : LfuOp × Bytes :=
  match arg with
  | c :: rest =>
      if c == ch '+' then (.gt, rest) else if c == ch '-' then (.lt, rest) else (.eq, arg)
  | [] => (.eq, [])

/-- The outcome of `lfu_parse_size`, whose last line divides by a product that may have
wrapped to zero.
-/
inductive SizeParse
  | divideByZero
  | bad
  | value (v : UInt64)
deriving DecidableEq, Repr

/-- The multiplier of a unit letter. -/
def sizeUnit? (c : UInt8) : Option UInt64 :=
  let c := tolower c
  if c == ch 'b' then some 512
  else if c == ch 'c' then some 1
  else if c == ch 'k' then some ((1 : UInt64) <<< 10)
  else if c == ch 'm' then some ((1 : UInt64) <<< 20)
  else if c == ch 'g' then some ((1 : UInt64) <<< 30)
  else if c == ch 't' then some ((1 : UInt64) <<< 40)
  else if c == ch 'p' then some ((1 : UInt64) <<< 50)
  else if c == ch 'e' then some ((1 : UInt64) <<< 60)
  else none

/-- The fraction: its digits as a number, the power of ten it is over, and what follows.
The power counts every character the conversion consumed.
-/
def sizeFraction (text : Bytes) : UInt64 × UInt64 × Bytes :=
  if firstChar text == ch '.' then
    let frac := strtoull text.tail 10
    (frac.value, 10 ^ (text.tail.length - frac.rest.length), frac.rest)
  else
    (0, 1, text)

/-- The multiplier: that of the unit, if there is one and nothing behind it. -/
def sizeMult? (units : UInt64) : Bytes → Option UInt64
  | [] => some units
  | [unit] => sizeUnit? unit
  | _ => none

def lfuParseSize (arg : Bytes) (units : UInt64) : SizeParse :=
  let whole := strtoull arg 0
  if !whole.converted || whole.erange then
    .bad
  else
    let (frac, fracDiv, text) := sizeFraction whole.rest
    match sizeMult? units text with
    | none => .bad
    | some mult =>
        if fracDiv == 0 then
          .divideByZero
        else
          .value (whole.value * mult + frac * mult / fracDiv)

/-- The seconds of a unit letter, and the text after it; days by default at the end. -/
def timeUnit? (text : Bytes) : Option (UInt64 × Bytes) :=
  match text with
  | [] => some (24 * 60 * 60, [])
  | c :: rest =>
      if c == ch 'y' then some (365 * 24 * 60 * 60, rest)
      else if c == ch 'w' then some (7 * 24 * 60 * 60, rest)
      else if c == ch 'd' then some (24 * 60 * 60, rest)
      else if c == ch 'h' then some (60 * 60, rest)
      else if c == ch 'm' then some (60, rest)
      else if c == ch 's' then some (1, rest)
      else none

/-- The term loop. Every term is at least one character, so the length of the argument is
fuel enough.
-/
def timeTerms : Nat → Bytes → UInt64 → UInt64 → Option (UInt64 × UInt64)
  | _, [], total, small => some (total, small)
  | 0, _ :: _, _, _ => none
  | left + 1, text, total, small =>
      let val := strtoull text 0
      if !val.converted || val.erange then
        none
      else
        match timeUnit? val.rest with
        | none => none
        | some (unit, rest) =>
            timeTerms left rest (total + val.value * unit)
              (if unit < small then unit else small)

/-- A sum of unit-suffixed terms, and the smallest unit used. -/
def lfuParseTime (arg : Bytes) : Option (UInt64 × UInt64) :=
  if arg.isEmpty then none else timeTerms arg.length arg 0 (24 * 60 * 60)

def lfuParseU64 (arg : Bytes) : Option UInt64 :=
  let out := strtoull arg 0
  if !out.converted || !out.rest.isEmpty || out.erange then none else some out.value

/-- A number, or a name from the given database. -/
def parseId (lookup : Bytes → Option UInt32) (arg : Bytes) : Option UInt64 :=
  match lfuParseU64 arg with
  | some id => some id
  | none => (lookup arg).map UInt32.toUInt64

def lfuParseUid (ns : NameService) (arg : Bytes) : Option UInt64 := parseId ns.getpwnam arg

def lfuParseGid (ns : NameService) (arg : Bytes) : Option UInt64 := parseId ns.getgrnam arg

/-- The file types, by name and letter. -/
def typeTable : List (Bytes × UInt8 × UInt64) :=
  [(cstr "file", ch 'f', 0o100000), (cstr "dir", ch 'd', 0o040000),
    (cstr "link", ch 'l', 0o120000), (cstr "block", ch 'b', 0o060000),
    (cstr "char", ch 'c', 0o020000), (cstr "pipe", ch 'p', 0o010000),
    (cstr "sock", ch 's', 0o140000)]

def lfuParseType (arg : Bytes) : Option UInt64 :=
  (typeTable.find? fun entry => arg == [entry.2.1] || arg == entry.1).map (·.2.2)

def lfuParsePerm (arg : Bytes) : Option (LfuOp × UInt64) :=
  let (op, text) :=
    match arg with
    | c :: rest =>
        if c == ch '-' then (LfuOp.all, rest)
        else if c == ch '/' then (.any, rest)
        else (.eq, arg)
    | [] => (.eq, [])
  let mode := strtoull text 8
  if !mode.converted || !mode.rest.isEmpty || mode.erange || mode.value > 0o7777 then
    none
  else
    some (op, mode.value)

/-- The `--attrs` names. -/
def attrTable : List (Bytes × UInt8 × UInt32) :=
  [(cstr "Compressed", ch 'c', lfuAttrCompressed), (cstr "Immutable", ch 'i', lfuAttrImmutable),
    (cstr "Append_Only", ch 'a', lfuAttrAppend), (cstr "No_Dump", ch 'd', lfuAttrNodump),
    (cstr "Encrypted", ch 'E', lfuAttrEncrypted)]

/-- The token loop: the wanted and unwanted bits so far. -/
def attrTokens : List Bytes → UInt64 → UInt64 → Except (List Complaint) (UInt64 × UInt64)
  | [], want, nowant => if want == 0 && nowant == 0 then .error [] else .ok (want, nowant)
  | tok :: rest, want, nowant =>
      let exclude := firstChar tok == ch '^'
      let tok := if exclude then tok.tail else tok
      match attrTable.find? fun entry => tok == [entry.2.1] || strcasecmp tok entry.1 with
      | none =>
          if strcasecmp tok (cstr "Automount") || tok == cstr "M" then
            .error [.automount]
          else
            .error []
      | some entry =>
          if exclude then
            attrTokens rest want (nowant ||| entry.2.2.toUInt64)
          else
            attrTokens rest (want ||| entry.2.2.toUInt64) nowant

/-- The bits that must be set and those that must be clear. -/
def lfuParseAttrs (arg : Bytes) : Except (List Complaint) (UInt64 × UInt64) :=
  if arg.length ≥ 128 then .error [] else attrTokens (strtok arg (ch ',')) 0 0

/-- The result of adding to an index list: whether it worked, the predicate, and what was
printed.
-/
structure ListParse where
  ok : Bool
  pred : LfuPred
  said : List Complaint := []

/-- The value loop of one range. One round more than the list has slots always ends it. -/
def addRange (hi : UInt64) : Nat → UInt64 → LfuPred → ListParse
  | 0, _, p => { ok := false, pred := p }
  | left + 1, v, p =>
      if v > hi then
        { ok := true, pred := p }
      else if p.nlist == lfuMaxList then
        { ok := false, pred := p, said := [.listTooLong] }
      else if v > 0xffffffff then
        { ok := false, pred := p }
      else
        addRange hi left (v + 1)
          {
            p with
            list := p.list.setIfInBounds p.nlist.toNat v.toUInt32
            nlist := p.nlist + 1
          }

/-- One element of an index list: its bounds. -/
def indexRange? (tok : Bytes) : Option (UInt64 × UInt64) :=
  let lo := strtoull tok 0
  if !lo.converted || lo.erange then
    none
  else if firstChar lo.rest == ch '-'
      && tok.length - lo.rest.length == tok.idxOf (ch '-') then
    -- the number stopped at the first dash
    let hi := strtoull lo.rest.tail 0
    if !hi.converted || !hi.rest.isEmpty || hi.value < lo.value then
      none
    else
      some (lo.value, hi.value)
  else if lo.rest.isEmpty then
    some (lo.value, lo.value)
  else
    none

def indexTokens : List Bytes → LfuPred → ListParse
  | [], p => { ok := p.nlist != 0, pred := p }
  | tok :: rest, p =>
      match indexRange? tok with
      | none => { ok := false, pred := p }
      | some (lo, hi) =>
          let added := addRange hi (lfuMaxList + 1) lo p
          if added.ok then indexTokens rest added.pred else added

def lfuParseIndexList (arg : Bytes) (p : LfuPred) : ListParse :=
  if arg.length ≥ 512 then
    { ok := false, pred := p }
  else
    indexTokens (strtok arg (ch ',')) p

/-- The `--layout` names. -/
def layoutTable : List (Bytes × UInt32) :=
  [(cstr "released", lovPatternFReleased), (cstr "raid0", lovPatternRaid0),
    (cstr "mdt", lovPatternMdt), (cstr "foreign", lovPatternForeign),
    (cstr "overstriped", lovPatternOverstriping)]

def layoutTokens : List Bytes → UInt64 → Option UInt64
  | [], pat => if pat == 0 then none else some pat
  | tok :: rest, pat =>
      match layoutTable.find? fun entry => tok == entry.1 with
      | none => none
      | some entry => layoutTokens rest (pat ||| entry.2.toUInt64)

def lfuParseLayout (arg : Bytes) : Option UInt64 :=
  if arg.length ≥ 64 then none else layoutTokens (strtok arg (ch ',')) 0

def mdtHashNames : List Bytes :=
  [cstr "all_char", cstr "fnv_1a_64", cstr "crush", cstr "crush2"]

def lfuParseMdtHash (arg : Bytes) : Option UInt64 :=
  if arg ∈ mdtHashNames then
    some (UInt64.ofNat (mdtHashNames.idxOf arg + 1))
  else
    lfuParseU64 arg

-----------------------------------------------------------------------------------------
-- Compile
-----------------------------------------------------------------------------------------

/-- The next predicate slot, cleared, with the pending negation taken; and what the field
demands is added to the mask.
-/
def lfuPredNew (f : LfuFilter) (fld : LfuField) : Option (LfuFilter × LfuPred) :=
  if f.n == lfuMaxPred then
    none
  else
    let p : LfuPred := { field := fld.code, neg := if f.negPending != 0 then 1 else 0 }
    some (
      {
        p := f.p.setIfInBounds f.n.toNat p
        n := f.n + 1
        negPending := 0
        needs := f.needs ||| lfuFieldNeeds fld.code
      },
      p)

/-- Store through the pointer `lfu_pred_new` returned. -/
def LfuFilter.store (f : LfuFilter) (p : LfuPred) : LfuFilter :=
  { f with p := f.p.setIfInBounds (f.n - 1).toNat p }

/-- The result of compiling one option: return code, filter, and what was printed. -/
structure OptResult where
  rc : Int
  filter : LfuFilter
  said : List Complaint := []
deriving DecidableEq

def lfuBad (f : LfuFilter) (opt : String) (arg : Bytes) (said : List Complaint) : OptResult :=
  { rc := -2, filter := f, said := said ++ [.bad opt arg] }

/-- A new predicate with an operator and its values. -/
def pushPred (f : LfuFilter) (fld : LfuField) (op : LfuOp) (val val2 : UInt64) : OptResult :=
  match lfuPredNew f fld with
  | none => { rc := -2, filter := f, said := [.tooManyPredicates] }
  | some (f, p) => { rc := 0, filter := f.store { p with op := op.code, val, val2 } }

/-- The times: a sign, then an age with its margin. -/
def compileTime (f : LfuFilter) (fld : LfuField) (arg : Bytes) : OptResult :=
  let (op, rest) := lfuParseSign arg
  match lfuParseTime rest with
  | none => lfuBad f "time" arg []
  | some (v, v2) => pushPred f fld op v v2

/-- The plain numeric comparisons. -/
def compileCount (f : LfuFilter) (fld : LfuField) (arg : Bytes) : OptResult :=
  let (op, rest) := lfuParseSign arg
  match lfuParseU64 rest with
  | none => lfuBad f "count" arg []
  | some v => pushPred f fld op v 0

/-- The byte and block quantities; `none` when the process dies dividing by zero. -/
def compileSize (f : LfuFilter) (fld : LfuField) (arg : Bytes) : Option OptResult :=
  let units : UInt64 := if fld == .stripeSize then 1 else 512
  let (op, rest) := lfuParseSign arg
  match lfuParseSize rest units with
  | .divideByZero => none
  | .bad => some (lfuBad f "size" arg [])
  | .value v =>
      -- a stripe size too small to be one is taken as KiB
      let v := if fld == .stripeSize && v < 4096 then v * 1024 else v
      some (pushPred f fld op v (if op == .eq then units else 0))

/-- The identities. -/
def compileId (f : LfuFilter) (fld : LfuField) (id : Option UInt64) (arg : Bytes)
    : OptResult :=
  match id with
  | none => lfuBad f "id" arg []
  | some v => pushPred f fld .eq v 0

/-- The single values that are compared with one fixed operator. -/
def compileValue (f : LfuFilter) (fld : LfuField) (op : LfuOp) (label : String)
    (value : Option UInt64) (arg : Bytes)
    : OptResult :=
  match value with
  | none => lfuBad f label arg []
  | some v => pushPred f fld op v 0

/-- The index list is parsed into a predicate that has already been taken. -/
def compileOst (f : LfuFilter) (arg : Bytes) : OptResult :=
  match lfuPredNew f .ost with
  | none => { rc := -2, filter := f, said := [.tooManyPredicates] }
  | some (f, p) =>
      let parsed := lfuParseIndexList arg { p with op := LfuOp.list.code }
      let f := f.store parsed.pred
      if parsed.ok then
        { rc := 0, filter := f }
      else
        lfuBad { f with n := f.n - 1 } "index list" arg parsed.said

/-- A string as the predicate's buffer holds it. -/
def strBuffer (arg : Bytes) : Vector UInt8 64 := Vector.ofFn fun i => arg.getD i.val 0

/-- The patterns, likewise checked only after the predicate has been taken. -/
def compilePattern (f : LfuFilter) (fld : LfuField) (arg : Bytes) : OptResult :=
  match lfuPredNew f fld with
  | none => { rc := -2, filter := f, said := [.tooManyPredicates] }
  | some (f, p) =>
      let p := { p with op := LfuOp.str.code }
      if arg.length ≥ lfuStrMax then
        lfuBad { f.store p with n := f.n - 1 } "pattern" arg []
      else
        { rc := 0, filter := f.store { p with str := strBuffer arg } }

def lfuFilterOpt (ns : NameService) (f : LfuFilter) (opt : LfuOpt) (arg : Bytes)
    : Option OptResult :=
  match opt with
  | .not => some { rc := 0, filter := { f with negPending := 1 } }
  | .atime => some (compileTime f .atime arg)
  | .mtime => some (compileTime f .mtime arg)
  | .ctime => some (compileTime f .ctime arg)
  | .btime => some (compileTime f .btime arg)
  | .links => some (compileCount f .links arg)
  | .stripeCount => some (compileCount f .stripeCount arg)
  | .mirrorCount => some (compileCount f .mirrorCount arg)
  | .compCount => some (compileCount f .compCount arg)
  | .mdtCount => some (compileCount f .mdtCount arg)
  | .size => compileSize f .size arg
  | .blocks => compileSize f .blocks arg
  | .devBlocks => compileSize f .devBlocks arg
  | .stripeSize => compileSize f .stripeSize arg
  | .uid => some (compileId f .uid (lfuParseUid ns arg) arg)
  | .gid => some (compileId f .gid (lfuParseGid ns arg) arg)
  | .projid => some (compileId f .projid (lfuParseU64 arg) arg)
  | .type => some (compileValue f .type .eq "type" (lfuParseType arg) arg)
  | .perm =>
      match lfuParsePerm arg with
      | none => some (lfuBad f "perm" arg [])
      | some (op, v) => some (pushPred f .perm op v 0)
  | .attrs =>
      match lfuParseAttrs arg with
      | .error said => some (lfuBad f "attrs" arg said)
      | .ok (v, v2) => some (pushPred f .attrs .all v v2)
  | .ost => some (compileOst f arg)
  | .pool => some (compilePattern f .pool arg)
  | .name => some (compilePattern f .name arg)
  | .layout => some (compileValue f .layout .any "layout" (lfuParseLayout arg) arg)
  | .mdtHash => some (compileValue f .mdtHash .eq "mdt-hash" (lfuParseMdtHash arg) arg)
  | .other => some { rc := -1, filter := f }

/-- The check after the last option: a negation must have found its predicate. -/
def lfuFilterCheck (f : LfuFilter) : Int := if f.negPending != 0 then -1 else 0

/-- The filters that come out of successful options, from an empty one. -/
inductive Compiled (ns : NameService) : LfuFilter → Prop
  | empty : Compiled ns {}
  | opt {f result} (before : Compiled ns f) (opt : LfuOpt) (arg : Bytes)
    (ran : lfuFilterOpt ns f opt arg = some result) (succeeded : result.rc = 0)
    : Compiled ns result.filter

end LfuScan.Filter
