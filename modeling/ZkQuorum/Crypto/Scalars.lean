import ZkQuorum.Crypto.Limbs
import ZkQuorum.Lib.Loops

/-!
# Scalars (crypto/src/riscv_fourq_verify.c)

`decompose` splits a 256-bit scalar into four 64-bit ones, `wNAF_recode` writes each of
these as signed digits. A `Digit w` carries the bound that makes it a table index. The
port writes the digits to consecutive cells of an array; here they are pushed to a list.
-/

namespace ZkQuorum.Crypto

/-- `uint64_t x[4]`. -/
abbrev Words4 := Vector UInt64 4

/-- `prod[i + j]`. -/
def cell (i j : Fin 4) : Fin 8 := ⟨i + j, by omega⟩

/-- `prod[i + 4]`. -/
def cellTop (i : Fin 4) : Fin 8 := ⟨i + 4, by omega⟩

/-- The inner loop of `mul_truncate`: the carry and `prod`. -/
def mulCell (si : UInt64) (C : Words4) (i : Fin 4) (st : UInt64 × Vector UInt64 8) (j : Fin 4) :
    UInt64 × Vector UInt64 8 :=
  let (carry, prod) := st
  let (lo, hi) := umul128 si C[j]
  let (c1, t) := addcarry64 false prod[cell i j] lo
  let (c2, t) := addcarry64 false t carry
  (hi + c1.toUInt64 + c2.toUInt64, prod.set (cell i j) t)

/-- The outer loop of `mul_truncate`. -/
def mulRow (s C : Words4) (prod : Vector UInt64 8) (i : Fin 4) : Vector UInt64 8 :=
  let (carry, prod) := forRange 4 (0, prod) (mulCell s[i] C i)
  prod.set (cellTop i) (prod[cellTop i] + carry)

/-- `mul_truncate`. -/
def mulTruncate (s C : Words4) : UInt64 := (forRange 4 (.replicate 8 0) (mulRow s C))[4]

/-! ## Decomposition -/

def ell1 : Words4 := #v[0x259686E09D1A7D4F, 0xF75682ACE6A6BD66, 0xFC5BB5C5EA2BE5DF, 0x07]

def ell2 : Words4 := #v[0xD1BA1D84DD627AFB, 0x2BD235580F468D8D, 0x8FD4B04CAA6C0F8A, 0x03]

def ell3 : Words4 := #v[0x9B291A33678C203C, 0xC42BD6C965DCA902, 0xD038BF8D0BFFBAF6, 0x00]

def ell4 : Words4 := #v[0x12E5666B77E7FDC0, 0x81CBDC3714983D82, 0x1B073877A22D8410, 0x03]

/-- `B11` to `B14`. -/
def B1 : Words4 :=
  #v[0xF6F900D81F5F5E6A, 0x1363E862C22A2DA0, 0xF8BD9FCE1337FCF1, 0x084F739986B9E651]

/-- `B21` to `B24`. -/
def B2 : Words4 :=
  #v[0xE2B6A4157B033D2C, 0x0000000000000001, 0xFFFFFFFFFFFFFFFF, 0xDA243A43722E9830]

/-- `B31` to `B34`. -/
def B3 : Words4 :=
  #v[0xE85452E2DCE0FCFE, 0xFD3BDEE51C7725AF, 0x2E4D21C98927C49F, 0xF56190BB3FD13269]

/-- `B41` to `B44`. -/
def B4 : Words4 :=
  #v[0xEC91CBF56EF737C1, 0xCEDD20D23C1F00CE, 0x068A49F02AA8A9B5, 0x18D5087896DE0AEA]

/-- `C1` to `C4`. -/
def C : Words4 := #v[0x72482C5251A4559C, 0x59F95B0ADD276F6C, 0x7DD2D17C4625FA78, 0x6BC57DEF56CE8877]

/-- `decompose`. -/
def decompose (k : Words4) : Words4 :=
  let a1 := mulTruncate k ell1
  let a2 := mulTruncate k ell2
  let a3 := mulTruncate k ell3
  let a4 := mulTruncate k ell4
  let s0 := a1 * B1[0] + a2 * B2[0] + a3 * B3[0] + a4 * B4[0] + C[0] + k[0]
  let s1 := a1 * B1[1] + a2 * B2[1] + a3 * B3[1] + a4 * B4[1] + C[1]
  let s2 := a1 * B1[2] + a2 * B2[2] + a3 * B3[2] + a4 * B4[2] + C[2]
  let s3 := a1 * B1[3] + a2 * B2[3] + a3 * B3[3] + a4 * B4[3] + C[3]
  if s0 &&& 1 = 0 then #v[s0 - B4[0], s1 - B4[1], s2 - B4[2], s3 - B4[3]]
  else #v[s0, s1, s2, s3]

/-! ## Recoding -/

/-- A width of `wNAF_recode`: a digit is a table index, and `1 << w` an `int`. -/
abbrev Width := { w : Nat // 2 ≤ w ∧ w ≤ 30 }

/-- A signed digit of width `w`. -/
abbrev Digit (w : Nat) := { d : Int // d.natAbs < 2 ^ (w - 1) }

/-- The zero digit. -/
def Digit.zero (w : Nat) : Digit w := ⟨0, Nat.two_pow_pos _⟩

/-- `(scalar & mask)`, with `mask = (1 << w) - 1`. -/
def lowDigit (w : Width) (scalar : UInt64) : UInt64 := scalar &&& ((1 <<< UInt64.ofNat w) - 1)

/-- `if (digit > val1) digit -= val2;` -/
def signedDigit (w : Width) (scalar : UInt64) : Int :=
  let digit : Int := (lowDigit w scalar).toNat
  if digit > 2 ^ (w.val - 1) - 1 then digit - 2 ^ w.val else digit

theorem toNat_lowDigit (w : Width) (scalar : UInt64) :
    (lowDigit w scalar).toNat = scalar.toNat % 2 ^ w.val := by
  obtain ⟨w, hw2, hw⟩ := w
  have hpow : ((1 : UInt64) <<< UInt64.ofNat w).toNat = 2 ^ w := by
    rw [toNat_shiftLeft 1 (by omega)]
    show 1 % 2 ^ (64 - w) * 2 ^ w = 2 ^ w
    rw [Nat.mod_eq_of_lt (Nat.one_lt_two_pow (by omega)), Nat.one_mul]
  apply toNat_and_mask
  have hle : (1 : UInt64) ≤ (1 : UInt64) <<< UInt64.ofNat w := by
    rw [UInt64.le_iff_toNat_le, hpow]
    exact Nat.two_pow_pos w
  rw [UInt64.toNat_sub_of_le _ _ hle, hpow]
  rfl

theorem and_one_eq_zero_iff (scalar : UInt64) : scalar &&& 1 = 0 ↔ scalar.toNat % 2 = 0 := by
  have h := toNat_and_mask (n := 1) (m := 1) scalar rfl
  rw [← UInt64.toNat_inj, h]
  rfl

/-- A digit of an odd scalar is a table index. -/
theorem natAbs_signedDigit (w : Width) {scalar : UInt64} (hodd : ¬ scalar &&& 1 = 0) :
    (signedDigit w scalar).natAbs < 2 ^ (w.val - 1) := by
  obtain ⟨w, hw2, hw⟩ := w
  -- with m = 2^(w-2) the digit is odd, below 4 m and so never 2 m
  have hhalf : 2 ^ (w - 1) = 2 * 2 ^ (w - 2) := by rw [← pow_succ', show w - 2 + 1 = w - 1 by omega]
  have hfull : 2 ^ w = 2 * 2 ^ (w - 1) := by rw [← pow_succ', show w - 1 + 1 = w by omega]
  have hlt : scalar.toNat % 2 ^ w < 2 ^ w := Nat.mod_lt _ (Nat.two_pow_pos w)
  have hmod : scalar.toNat % 2 ^ w % 2 = scalar.toNat % 2 :=
    Nat.mod_mod_of_dvd _ (dvd_pow_self 2 (by omega))
  rw [and_one_eq_zero_iff] at hodd
  have hhalf' : (2 : Int) ^ (w - 1) = (2 ^ (w - 1) : Nat) := by norm_cast
  have hfull' : (2 : Int) ^ w = (2 ^ w : Nat) := by norm_cast
  rw [signedDigit, toNat_lowDigit]
  simp only [hhalf', hfull']
  split
  · omega
  · omega

/-- The scalar after its low digit is taken. -/
def nextScalar (w : Width) (scalar : UInt64) : UInt64 :=
  let rest := scalar >>> UInt64.ofNat w
  if signedDigit w scalar < 0 then rest + 1 else rest

theorem toNat_nextScalar (w : Width) (scalar : UInt64) : (nextScalar w scalar).toNat
    = scalar.toNat / 2 ^ w.val + if signedDigit w scalar < 0 then 1 else 0 := by
  have hrest : (scalar >>> UInt64.ofNat w).toNat = scalar.toNat / 2 ^ w.val :=
    toNat_shiftRight scalar (by omega)
  have hle : scalar.toNat / 2 ^ w.val < 2 ^ 64 - 1 := by
    apply Nat.lt_of_le_of_lt (Nat.div_le_div_left (Nat.pow_le_pow_right two_pos w.property.1)
      (by decide))
    have hlt := scalar.toNat_lt
    omega
  simp only [nextScalar]
  split
  · rw [UInt64.toNat_add, hrest]
    show (_ + 1) % 2 ^ 64 = _
    rw [Nat.mod_eq_of_lt (by omega)]
  · exact hrest

theorem nextScalar_lt (w : Width) {scalar : UInt64} (hodd : ¬ scalar &&& 1 = 0) :
    (nextScalar w scalar).toNat < scalar.toNat := by
  rw [and_one_eq_zero_iff] at hodd
  have hdiv : scalar.toNat / 2 ^ w.val ≤ scalar.toNat / 2 ^ 2 :=
    Nat.div_le_div_left (Nat.pow_le_pow_right two_pos w.property.1) (by decide)
  rw [toNat_nextScalar]
  split
  · rename_i hneg
    have hone : scalar.toNat ≠ 1 := by
      intro hone
      have hlow : (lowDigit w scalar).toNat ≤ 1 := by
        rw [toNat_lowDigit, hone]
        exact Nat.mod_le _ _
      have hhalf : (2 : Int) ≤ 2 ^ (w.val - 1) := by
        exact_mod_cast Nat.pow_le_pow_right two_pos (show 1 ≤ w.val - 1 by omega)
      rw [signedDigit] at hneg
      split at hneg
      · omega
      · omega
    omega
  · omega

/-- The loop of `wNAF_recode`, with the digits written so far. -/
def wnafLoop (w : Width) (scalar : UInt64) (digits : List (Digit w)) : List (Digit w) :=
  if _hzero : scalar = 0 then digits
  else if hodd : scalar &&& 1 = 0 then wnafLoop w (scalar >>> 1) (digits ++ [.zero w])
  else
    let digits := digits ++ [⟨signedDigit w scalar, natAbs_signedDigit w hodd⟩]
    let scalar := nextScalar w scalar
    let digits := if scalar ≠ 0 then digits ++ List.replicate (w - 1) (.zero w) else digits
    wnafLoop w scalar digits
termination_by scalar.toNat
decreasing_by
  · have hpos : scalar.toNat ≠ 0 := fun h => _hzero (UInt64.toNat_inj.mp h)
    have hshift : (scalar >>> 1).toNat = scalar.toNat / 2 :=
      toNat_shiftRight scalar (show 1 < 64 by decide)
    omega
  · exact nextScalar_lt w hodd

/-- `wNAF_recode`: the digits and the zeros that `setMem` fills the array with. -/
def wnafRecode (w : Width) (scalar : UInt64) : List (Digit w) :=
  let digits := wnafLoop w scalar []
  digits ++ List.replicate (65 - digits.length) (.zero w)

end ZkQuorum.Crypto
