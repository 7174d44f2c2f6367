import Mathlib.Algebra.Group.Nat.Defs
import Mathlib.Data.List.Basic

/-! The on-disk Lustre structures the scanners interpret: constants, byte loads and the
FID sequence ranges.
-/

namespace LfuScan.Lustre

/-- The bytes of an extended attribute or of a C string without its terminator. -/
abbrev Bytes := List UInt8

/-- A file identifier. -/
structure LuFid where
  fSeq : UInt64 := 0
  fOid : UInt32 := 0
  fVer : UInt32 := 0
deriving DecidableEq, Repr, Inhabited

/-- What the scans take from Lustre's headers and its library about FIDs. No FID of sequence 0
is in use, and a hash is within the bits that are asked for.
-/
class LustreFid where
  fidIsSane : LuFid → Bool
  fidIsLastId : LuFid → Bool
  fidIsRoot : LuFid → Bool
  luIgifBuild : (ino gen : UInt32) → LuFid
  llapiFidHash : LuFid → (shift : Nat) → Fin (2 ^ shift)
  sane_seq : ∀ fid, fidIsSane fid = true → fid.fSeq ≠ 0

def lmacNotInOi : UInt32 := 0x00000004
def lmacFidOnOst : UInt32 := 0x00000008

def lmaiAgent : UInt32 := 0x00000002
def lmaiRemoteParent : UInt32 := 0x00000004
def lmaiStriped : UInt32 := 0x00000008
def lmaiOrphan : UInt32 := 0x00000010
def lmaiEncrypt : UInt32 := 0x00000020
def lmaIncompatSupp : UInt32 :=
  lmaiAgent ||| lmaiRemoteParent ||| lmaiStriped ||| lmaiOrphan ||| lmaiEncrypt

def somFlStrict : UInt16 := 0x0001
def somFlLazy : UInt16 := 0x0004
def lustreSomAttrsSize : Nat := 24

def lovMagicV1 : UInt32 := 0x0BD10BD0
def lovMagicV3 : UInt32 := 0x0BD30BD0
def lovMagicSpecific : UInt32 := 0x0BD50BD0
def lovMagicCompV1 : UInt32 := 0x0BD60BD0
def lovMagicForeign : UInt32 := 0x0BD70BD0
def lovMaxPoolName : Nat := 15

def lovPatternRaid0 : UInt32 := 0x001
def lovPatternMdt : UInt32 := 0x100
def lovPatternOverstriping : UInt32 := 0x200
def lovPatternForeign : UInt32 := 0x400
def lovPatternFReleased : UInt32 := 0x80000000

/-- `LCME_FL_INIT`: the component has been instantiated. -/
def lcmeFlInit : UInt32 := 0x00000010

def lovOstDataV1Size : Nat := 24
def lovMdsMdV1Size : Nat := 32
def lovMdsMdV3Size : Nat := 48
def lovCompMdEntryV1Size : Nat := 48
def lovCompMdV1Size : Nat := 32

def lmvMagicV1 : UInt32 := 0x0CD20CD0
def lmvMagicStripe : UInt32 := 0x0CD40CD0
def lmvHashTypeMask : UInt32 := 0x0000ffff
def lmvMdsMdV1Size : Nat := 56

def linkEaMagic : UInt32 := 0x11EAF1DF
def linkEaHeaderSize : Nat := 24
def linkEaEntrySize : Nat := 18

/-- The two `la_flags` bits an OSD derives from the LMA. -/
def lustreOrphanFl : UInt32 := 0x00002000
def lustreEncryptFl : UInt32 := 0x00800000

def byteAt (b : Bytes) (off : Nat) : UInt8 := b.getD off 0

def lfuLe16 (b : Bytes) (off : Nat) : UInt16 :=
  (byteAt b off).toUInt16 ||| (byteAt b (off + 1)).toUInt16 <<< 8

def lfuLe32 (b : Bytes) (off : Nat) : UInt32 :=
  (lfuLe16 b off).toUInt32 ||| (lfuLe16 b (off + 2)).toUInt32 <<< 16

def lfuLe64 (b : Bytes) (off : Nat) : UInt64 :=
  (lfuLe32 b off).toUInt64 ||| (lfuLe32 b (off + 4)).toUInt64 <<< 32

def bswap16 (v : UInt16) : UInt16 := v <<< 8 ||| v >>> 8

def bswap32 (v : UInt32) : UInt32 :=
  (bswap16 v.toUInt16).toUInt32 <<< 16 ||| (bswap16 (v >>> 16).toUInt16).toUInt32

def bswap64 (v : UInt64) : UInt64 :=
  (bswap32 v.toUInt32).toUInt64 <<< 32 ||| (bswap32 (v >>> 32).toUInt32).toUInt64

/-- The byte order of the machine the code runs on. -/
inductive ByteOrder
  | little
  | big
deriving DecidableEq, Repr

def lfuHost32 (order : ByteOrder) (b : Bytes) (off : Nat) : UInt32 :=
  match order with
  | .little => lfuLe32 b off
  | .big => bswap32 (lfuLe32 b off)

def lfuHost64 (order : ByteOrder) (b : Bytes) (off : Nat) : UInt64 :=
  match order with
  | .little => lfuLe64 b off
  | .big => bswap64 (lfuLe64 b off)

def fidSeqIgif : UInt64 := 0xc
def fidSeqIgifMax : UInt64 := 0x0ffffffff
def fidSeqIdif : UInt64 := 0x100000000
def fidSeqIdifMax : UInt64 := 0x1ffffffff
def fidSeqStart : UInt64 := 0x200000000
def fidSeqDotLustre : UInt64 := 0x200000002
def fidSeqRoot : UInt64 := 0x200000007
def fidSeqNormal : UInt64 := 0x200000400

def fidSeqIsIgif (seq : UInt64) : Bool := seq ≥ fidSeqIgif && seq ≤ fidSeqIgifMax

def fidSeqIsIdif (seq : UInt64) : Bool := seq ≥ fidSeqIdif && seq ≤ fidSeqIdifMax

def fidSeqIsNorm (seq : UInt64) : Bool := seq ≥ fidSeqNormal

def fidSeqIsRoot (seq : UInt64) : Bool := seq == fidSeqRoot

def fidSeqIsDot (seq : UInt64) : Bool := seq == fidSeqDotLustre

/-- The reserved range below the normal sequences that is not namespace-visible. -/
def fidSeqIsInternal (seq : UInt64) : Bool :=
  seq ≥ fidSeqStart && seq < fidSeqNormal && !fidSeqIsRoot seq && !fidSeqIsDot seq

def fidSeqIsNamespaceVisible (seq : UInt64) : Bool :=
  fidSeqIsNorm seq || fidSeqIsIgif seq || fidSeqIsRoot seq || fidSeqIsDot seq

theorem seq_ne_zero (fid : LuFid) (sane : (fid.fSeq != 0) = true) : fid.fSeq ≠ 0 :=
  bne_iff_ne.mp sane

/-- A library to try things with: every FID of a sequence is sane, and hashes to its object. -/
@[reducible] def plainFid : LustreFid where
  fidIsSane fid := fid.fSeq != 0
  fidIsLastId fid := fid.fOid == 0
  fidIsRoot fid := fidSeqIsRoot fid.fSeq
  luIgifBuild ino gen := { fSeq := ino.toUInt64, fOid := gen }
  llapiFidHash fid shift := Fin.ofNat (2 ^ shift) fid.fOid.toNat
  sane_seq := seq_ne_zero

end LfuScan.Lustre
