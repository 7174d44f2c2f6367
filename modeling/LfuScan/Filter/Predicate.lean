import LfuScan.Lustre.OnDisk

/-! The compiled filter: fields, operators, fixed-size predicates, the demand mask, and the
records and attribute values a predicate is judged on.
-/

namespace LfuScan.Filter

open LfuScan.Lustre

def lfuAttrCompressed : UInt32 := 0x00000004
def lfuAttrImmutable : UInt32 := 0x00000010
def lfuAttrAppend : UInt32 := 0x00000020
def lfuAttrNodump : UInt32 := 0x00000040
def lfuAttrEncrypted : UInt32 := 0x00000800
def lfuAttrAll : UInt32 :=
  lfuAttrCompressed ||| lfuAttrImmutable ||| lfuAttrAppend ||| lfuAttrNodump
    ||| lfuAttrEncrypted

/-- The four extended attributes a filter can ask for. -/
inductive XattrName
  | som
  | lov
  | lmv
  | link
deriving DecidableEq, Repr

/-- The bit of an attribute in a demand mask (`enum lfu_needs`). -/
def XattrName.need : XattrName → UInt32
  | .som => 0x01
  | .lov => 0x02
  | .lmv => 0x04
  | .link => 0x08

/-- Bits are tested one at a time. -/
theorem or_and_mask (left right mask : UInt32)
    : (left ||| right) &&& mask = (left &&& mask) ||| (right &&& mask) := by
  rw [← UInt32.toNat_inj]
  simp only [UInt32.toNat_and, UInt32.toNat_or, Nat.and_or_distrib_right]

/-- A demand mask asks for an attribute. -/
def needsHas (needs : UInt32) (name : XattrName) : Bool := needs &&& name.need != 0

/-- `enum lfu_field`, in the order of its codes. -/
inductive LfuField
  | atime | mtime | ctime | btime
  | uid | gid | type | perm | links
  | projid | attrs | devBlocks
  | size | blocks
  | stripeCount | stripeSize | ost | pool
  | layout | mirrorCount | compCount
  | mdtCount | mdtHash
  | name
deriving DecidableEq, Repr

/-- `LFU_F_MAX`. -/
def lfuFMax : UInt8 := 24

def LfuField.table : List LfuField :=
  [.atime, .mtime, .ctime, .btime, .uid, .gid, .type, .perm, .links, .projid, .attrs,
    .devBlocks, .size, .blocks, .stripeCount, .stripeSize, .ost, .pool, .layout,
    .mirrorCount, .compCount, .mdtCount, .mdtHash, .name]

def LfuField.code (field : LfuField) : UInt8 := UInt8.ofNat (LfuField.table.idxOf field)

/-- The field a predicate byte names, if it names one. -/
def LfuField.ofCode? (code : UInt8) : Option LfuField := LfuField.table[code.toNat]?

@[simp] theorem LfuField.ofCode?_code (field : LfuField)
    : LfuField.ofCode? field.code = some field := by
  cases field <;> rfl

/-- Fields from `LFU_F_SIZE` on live in extended attributes. -/
def lfuFieldTier (code : UInt8) : Nat := if code ≥ LfuField.size.code then 1 else 0

/-- What a field demands beyond the inode. -/
def lfuFieldNeeds (code : UInt8) : UInt32 :=
  match LfuField.ofCode? code with
  -- the size attribute for the value, the layout to know whether it is needed
  | some .size | some .blocks => XattrName.som.need ||| XattrName.lov.need
  | some .stripeCount | some .stripeSize | some .ost | some .pool | some .layout
  | some .mirrorCount | some .compCount => XattrName.lov.need
  | some .mdtCount | some .mdtHash => XattrName.lmv.need
  | some .name => XattrName.link.need
  | _ => 0

/-- `enum lfu_op`, in the order of its codes. -/
inductive LfuOp
  | eq | gt | lt | all | any | list | str
deriving DecidableEq, Repr

/-- `LFU_OP_MAX`. -/
def lfuOpMax : UInt8 := 7

def LfuOp.table : List LfuOp := [.eq, .gt, .lt, .all, .any, .list, .str]

def LfuOp.code (op : LfuOp) : UInt8 := UInt8.ofNat (LfuOp.table.idxOf op)

def LfuOp.ofCode? (code : UInt8) : Option LfuOp := LfuOp.table[code.toNat]?

@[simp] theorem LfuOp.ofCode?_code (op : LfuOp) : LfuOp.ofCode? op.code = some op := by
  cases op <;> rfl

def lfuMaxList : Nat := 64
def lfuStrMax : Nat := 64
def lfuMaxPred : Nat := 32

/-- One predicate. The codes are raw bytes: a filter that arrives from userspace may hold
any values until it has been validated.
-/
structure LfuPred where
  field : UInt8 := 0
  op : UInt8 := 0
  neg : UInt8 := 0
  val : UInt64 := 0
  val2 : UInt64 := 0
  list : Vector UInt32 64 := Vector.replicate 64 0
  nlist : Int := 0
  str : Vector UInt8 64 := Vector.replicate 64 0
deriving DecidableEq, Repr, Inhabited

/-- The indices an index list names. -/
def LfuPred.indices (p : LfuPred) : List UInt32 := p.list.toList.take p.nlist.toNat

/-- The pattern of a string predicate, up to its terminator. -/
def LfuPred.pattern (p : LfuPred) : Bytes := p.str.toList.takeWhile (· != 0)

structure LfuFilter where
  p : Vector LfuPred 32 := Vector.replicate 32 {}
  n : Int := 0
  needs : UInt32 := 0
  negPending : Int := 0
deriving DecidableEq, Repr, Inhabited

/-- The predicates in use, in order. -/
def LfuFilter.preds (f : LfuFilter) : List LfuPred := f.p.toList.take f.n.toNat

def lfuFilterActive (f : LfuFilter) : Bool := f.n > 0

def lfuFilterNeeds (f : LfuFilter) : UInt32 := f.needs

/-- The outcome of an evaluation (`enum lfu_match`). -/
inductive LfuMatch
  | noMatch
  | matched
  | unknown
deriving DecidableEq, Repr

/-- A raw attribute value: absent (a NULL buffer) or its bytes. -/
abbrev LfuEa := Option Bytes

/-- The raw values a backend supplied. -/
structure LfuEas where
  som : LfuEa := none
  lov : LfuEa := none
  lmv : LfuEa := none
  link : LfuEa := none
  external : Bool := false
deriving DecidableEq, Repr, Inhabited

def LfuEas.get (eas : LfuEas) : XattrName → LfuEa
  | .som => eas.som
  | .lov => eas.lov
  | .lmv => eas.lmv
  | .link => eas.link

/-- The decoded size-on-MDT attribute. -/
structure Tier1Som where
  haveSom : Bool := false
  somValid : UInt16 := 0
  somSize : UInt64 := 0
  somBlocks : UInt64 := 0
deriving DecidableEq, Repr, Inhabited

/-- The decoded layout. -/
structure Tier1Lov where
  haveLov : Bool := false
  lovMagic : UInt32 := 0
  pattern : UInt32 := 0
  stripeCount : UInt32 := 0
  stripeSize : UInt32 := 0
  compCount : UInt32 := 0
  mirrorCount : UInt32 := 0
  pool : Vector UInt8 16 := Vector.replicate 16 0
deriving DecidableEq, Repr, Inhabited

/-- The decoded striped-directory layout. -/
structure Tier1Lmv where
  haveLmv : Bool := false
  lmvCount : UInt32 := 0
  lmvHash : UInt32 := 0
deriving DecidableEq, Repr, Inhabited

/-- The decoded tier-1 attributes: one group of fields for each attribute. -/
structure LfuTier1 extends Tier1Som, Tier1Lov, Tier1Lmv where
  haveLink : Bool := false
deriving DecidableEq, Repr, Inhabited

/-- One object's attributes, as every backend fills them. -/
structure LfuRec where
  fid : LuFid := {}
  lmaCompat : UInt32 := 0
  lmaIncompat : UInt32 := 0
  id : UInt64 := 0
  mode : UInt16 := 0
  nlink : UInt32 := 0
  uid : UInt32 := 0
  gid : UInt32 := 0
  projid : UInt32 := 0
  flags : UInt32 := 0
  size : UInt64 := 0
  blocks : UInt64 := 0
  atime : UInt32 := 0
  mtime : UInt32 := 0
  ctime : UInt32 := 0
  crtime : UInt32 := 0
  hasExtEa : Bool := false
  t1 : LfuTier1 := {}
  t1Valid : Bool := false
  unknown : Bool := false
deriving DecidableEq, Repr, Inhabited

end LfuScan.Filter
