import LfuScan.Lustre.Layout

/-! Numbers in the byte order of the host that wrote them, and what a host of either order
reads there.
-/

namespace LfuScan.Lustre

-----------------------------------------------------------------------------------------
-- Halves
-----------------------------------------------------------------------------------------

theorem join_le64 (v : UInt64)
    : v.toUInt32.toUInt64 ||| (v >>> 32).toUInt32.toUInt64 <<< 32 = v := by
  have top := v.toNat_lt
  rw [← UInt64.toNat_inj]
  simp only [UInt64.toNat_or, UInt64.toNat_shiftLeft, UInt64.toNat_shiftRight,
    UInt32.toNat_toUInt64, UInt64.toNat_toUInt32]
  rw [show (32 : UInt64).toNat % 64 = 32 from rfl, Nat.shiftRight_eq_div_pow,
    Nat.mod_eq_of_lt (a := v.toNat / 2 ^ 32) (by omega), Nat.mod_eq_of_lt (a := _ <<< 32),
    join_halves _ _ 32 (Nat.mod_lt _ (by decide))]
  · omega
  · rw [Nat.shiftLeft_eq]
    omega

theorem halves16 (low high : UInt8)
    : (high.toUInt16 <<< 8 ||| low.toUInt16).toUInt8 = low
      ∧ ((high.toUInt16 <<< 8 ||| low.toUInt16) >>> 8).toUInt8 = high := by
  have small := low.toNat_lt
  have top := high.toNat_lt
  have value : (high.toUInt16 <<< 8 ||| low.toUInt16).toNat = high.toNat * 2 ^ 8 + low.toNat := by
    simp only [UInt16.toNat_or, UInt16.toNat_shiftLeft, UInt8.toNat_toUInt16]
    rw [show (8 : UInt16).toNat % 16 = 8 from rfl, Nat.mod_eq_of_lt, Nat.or_comm,
      join_halves _ _ 8 small]
    rw [Nat.shiftLeft_eq]
    omega
  constructor
  · rw [← UInt8.toNat_inj, UInt16.toNat_toUInt8, value]
    omega
  · rw [← UInt8.toNat_inj, UInt16.toNat_toUInt8, UInt16.toNat_shiftRight, value,
      Nat.shiftRight_eq_div_pow]
    change (high.toNat * 2 ^ 8 + low.toNat) / 2 ^ 8 % 2 ^ 8 = high.toNat
    omega

theorem halves32 (low high : UInt16)
    : (high.toUInt32 <<< 16 ||| low.toUInt32).toUInt16 = low
      ∧ ((high.toUInt32 <<< 16 ||| low.toUInt32) >>> 16).toUInt16 = high := by
  have small := low.toNat_lt
  have top := high.toNat_lt
  have value : (high.toUInt32 <<< 16 ||| low.toUInt32).toNat
      = high.toNat * 2 ^ 16 + low.toNat := by
    simp only [UInt32.toNat_or, UInt32.toNat_shiftLeft, UInt16.toNat_toUInt32]
    rw [show (16 : UInt32).toNat % 32 = 16 from rfl, Nat.mod_eq_of_lt, Nat.or_comm,
      join_halves _ _ 16 small]
    rw [Nat.shiftLeft_eq]
    omega
  constructor
  · rw [← UInt16.toNat_inj, UInt32.toNat_toUInt16, value]
    omega
  · rw [← UInt16.toNat_inj, UInt32.toNat_toUInt16, UInt32.toNat_shiftRight, value,
      Nat.shiftRight_eq_div_pow]
    change (high.toNat * 2 ^ 16 + low.toNat) / 2 ^ 16 % 2 ^ 16 = high.toNat
    omega

theorem halves64 (low high : UInt32)
    : (high.toUInt64 <<< 32 ||| low.toUInt64).toUInt32 = low
      ∧ ((high.toUInt64 <<< 32 ||| low.toUInt64) >>> 32).toUInt32 = high := by
  have small := low.toNat_lt
  have top := high.toNat_lt
  have value : (high.toUInt64 <<< 32 ||| low.toUInt64).toNat
      = high.toNat * 2 ^ 32 + low.toNat := by
    simp only [UInt64.toNat_or, UInt64.toNat_shiftLeft, UInt32.toNat_toUInt64]
    rw [show (32 : UInt64).toNat % 64 = 32 from rfl, Nat.mod_eq_of_lt, Nat.or_comm,
      join_halves _ _ 32 small]
    rw [Nat.shiftLeft_eq]
    omega
  constructor
  · rw [← UInt32.toNat_inj, UInt64.toNat_toUInt32, value]
    omega
  · rw [← UInt32.toNat_inj, UInt64.toNat_toUInt32, UInt64.toNat_shiftRight, value,
      Nat.shiftRight_eq_div_pow]
    change (high.toNat * 2 ^ 32 + low.toNat) / 2 ^ 32 % 2 ^ 32 = high.toNat
    omega

/-- The two bytes the other way round. -/
theorem bswap16_eq (v : UInt16)
    : bswap16 v = v.toUInt8.toUInt16 <<< 8 ||| (v >>> 8).toUInt8.toUInt16 := by
  have top := v.toNat_lt
  have low : v <<< 8 = v.toUInt8.toUInt16 <<< 8 := by
    rw [← UInt16.toNat_inj]
    simp only [UInt16.toNat_shiftLeft, UInt8.toNat_toUInt16, UInt16.toNat_toUInt8]
    rw [show (8 : UInt16).toNat % 16 = 8 from rfl, Nat.shiftLeft_eq, Nat.shiftLeft_eq]
    omega
  have high : v >>> 8 = (v >>> 8).toUInt8.toUInt16 := by
    rw [← UInt16.toNat_inj]
    simp only [UInt16.toNat_shiftRight, UInt8.toNat_toUInt16, UInt16.toNat_toUInt8]
    rw [show (8 : UInt16).toNat % 16 = 8 from rfl, Nat.shiftRight_eq_div_pow]
    omega
  unfold bswap16
  rw [← low, ← high]

theorem bswap16_bswap16 (v : UInt16) : bswap16 (bswap16 v) = v := by
  rw [bswap16_eq (bswap16 v), bswap16_eq v, (halves16 _ _).1, (halves16 _ _).2,
    UInt16.or_comm, join_le16]

theorem bswap32_bswap32 (v : UInt32) : bswap32 (bswap32 v) = v := by
  rw [bswap32, bswap32, (halves32 _ _).1, (halves32 _ _).2, bswap16_bswap16,
    bswap16_bswap16, UInt32.or_comm, join_le32]

theorem bswap64_bswap64 (v : UInt64) : bswap64 (bswap64 v) = v := by
  rw [bswap64, bswap64, (halves64 _ _).1, (halves64 _ _).2, bswap32_bswap32,
    bswap32_bswap32, UInt64.or_comm, join_le64]

def be16 (v : UInt16) : Bytes := [(v >>> 8).toUInt8, v.toUInt8]

def be32 (v : UInt32) : Bytes := be16 (v >>> 16).toUInt16 ++ be16 v.toUInt16

def be64 (v : UInt64) : Bytes := be32 (v >>> 32).toUInt32 ++ be32 v.toUInt32

/-- A number as a host of the given order stores it. -/
def store32 : ByteOrder → UInt32 → Bytes
  | .little => le32
  | .big => be32

def store64 : ByteOrder → UInt64 → Bytes
  | .little => le64
  | .big => be64

@[simp] theorem length_store32 (order : ByteOrder) (v : UInt32)
    : (store32 order v).length = 4 := by
  cases order <;> rfl

@[simp] theorem length_store64 (order : ByteOrder) (v : UInt64)
    : (store64 order v).length = 8 := by
  cases order <;> rfl

theorem lfuLe16_be16 (v : UInt16) (back : Bytes) : lfuLe16 (be16 v ++ back) 0 = bswap16 v := by
  rw [bswap16_eq, UInt16.or_comm]
  rfl

theorem lfuLe32_be32 (v : UInt32) (back : Bytes) : lfuLe32 (be32 v ++ back) 0 = bswap32 v := by
  have low : lfuLe16 (be32 v ++ back) 0 = bswap16 (v >>> 16).toUInt16 := by
    rw [be32, List.append_assoc, lfuLe16_be16]
  have high : lfuLe16 (be32 v ++ back) 2 = bswap16 v.toUInt16 := by
    rw [be32, List.append_assoc]
    exact (lfuLe16_skip (n := 2) rfl _ 0).trans (lfuLe16_be16 _ _)
  rw [lfuLe32, low, high, bswap32, UInt32.or_comm]

theorem lfuLe64_le64 (v : UInt64) (back : Bytes) : lfuLe64 (le64 v ++ back) 0 = v := by
  have low : lfuLe32 (le64 v ++ back) 0 = v.toUInt32 := by
    rw [le64, List.append_assoc, lfuLe32_head]
  have high : lfuLe32 (le64 v ++ back) 4 = (v >>> 32).toUInt32 := by
    rw [le64, List.append_assoc]
    exact (lfuLe32_skip (n := 4) rfl _ 0).trans (lfuLe32_head _ _)
  rw [lfuLe64, low, high, join_le64]

theorem lfuLe64_be64 (v : UInt64) (back : Bytes) : lfuLe64 (be64 v ++ back) 0 = bswap64 v := by
  have low : lfuLe32 (be64 v ++ back) 0 = bswap32 (v >>> 32).toUInt32 := by
    rw [be64, List.append_assoc, lfuLe32_be32]
  have high : lfuLe32 (be64 v ++ back) 4 = bswap32 v.toUInt32 := by
    rw [be64, List.append_assoc]
    exact (lfuLe32_skip (n := 4) rfl _ 0).trans (lfuLe32_be32 _ _)
  rw [lfuLe64, low, high, bswap64, UInt64.or_comm]

/-- A host reads what a host of its own order has stored, and the bytes swapped otherwise. -/
theorem lfuHost32_store32 (reader writer : ByteOrder) (v : UInt32) (back : Bytes)
    : lfuHost32 reader (store32 writer v ++ back) 0
      = if reader = writer then v else bswap32 v := by
  cases reader <;> cases writer
  · exact lfuLe32_head v back
  · exact lfuLe32_be32 v back
  · exact congrArg bswap32 (lfuLe32_head v back)
  · exact (congrArg bswap32 (lfuLe32_be32 v back)).trans (bswap32_bswap32 v)

theorem lfuHost64_store64 (reader writer : ByteOrder) (v : UInt64) (back : Bytes)
    : lfuHost64 reader (store64 writer v ++ back) 0
      = if reader = writer then v else bswap64 v := by
  cases reader <;> cases writer
  · exact lfuLe64_le64 v back
  · exact lfuLe64_be64 v back
  · exact congrArg bswap64 (lfuLe64_le64 v back)
  · exact (congrArg bswap64 (lfuLe64_be64 v back)).trans (bswap64_bswap64 v)

theorem lfuHost32_skip {front : Bytes} {n : Nat} (size : front.length = n) (order : ByteOrder)
    (back : Bytes) (off : Nat)
    : lfuHost32 order (front ++ back) (n + off) = lfuHost32 order back off := by
  cases order <;> simp only [lfuHost32, lfuLe32_skip size]

theorem lfuHost64_skip {front : Bytes} {n : Nat} (size : front.length = n) (order : ByteOrder)
    (back : Bytes) (off : Nat)
    : lfuHost64 order (front ++ back) (n + off) = lfuHost64 order back off := by
  cases order <;> simp only [lfuHost64, lfuLe64, Nat.add_assoc, lfuLe32_skip size]

end LfuScan.Lustre
