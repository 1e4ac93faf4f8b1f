import ZkQuorum.Crypto.Limbs
import Mathlib.Data.Nat.ModEq

/-!
# The field GF(2^127 - 1) on limbs (crypto/src/riscv_fourq_verify.c)

A field element is two limbs. All operations keep bit 127 clear, so a value lies in
`[0, p]`: zero has two representations, 0 and p, and every other residue has one.
Each operation has a lemma that says which number it computes from such values.
-/

namespace ZkQuorum.Crypto

/-- The field prime p = 2^127 - 1. -/
abbrev p1271 : Nat := 2 ^ 127 - 1

/-- The limbs of a `felm_t`, low limb first. -/
abbrev Limbs := UInt64 × UInt64

/-- The number that the limbs spell. -/
def Limbs.value (a : Limbs) : Nat := wide a.1 a.2

theorem wide_lt (lo hi : UInt64) : wide lo hi < 2 ^ 128 := by
  have hlo := lo.toNat_lt
  have hhi := hi.toNat_lt
  simp only [wide]
  omega

theorem high_lt {a : Limbs} (ha : Limbs.value a ≤ p1271) : a.2.toNat < 2 ^ 63 := by
  simp only [Limbs.value, wide, p1271] at ha
  omega

theorem value_le_of_high_lt {lo hi : UInt64} (h : hi.toNat < 2 ^ 63) :
    Limbs.value (lo, hi) ≤ p1271 := by
  have hlo := lo.toNat_lt
  show lo.toNat + 2 ^ 64 * hi.toNat ≤ 2 ^ 127 - 1
  omega

theorem Limbs.value_eq (a : Limbs) : Limbs.value a = a.1.toNat + 2 ^ 64 * a.2.toNat := rfl

theorem Limbs.value_inj {a b : Limbs} (h : Limbs.value a = Limbs.value b) : a = b := by
  have ha := a.1.toNat_lt
  have hb := b.1.toNat_lt
  rw [Limbs.value_eq, Limbs.value_eq] at h
  apply Prod.ext
  · apply UInt64.toNat_inj.mp
    omega
  · apply UInt64.toNat_inj.mp
    omega

namespace Raw

/-- `mod1271`. -/
def mod1271 (a : Limbs) : Limbs :=
  let (b, a0) := subborrow64 false a.1 0xFFFFFFFFFFFFFFFF
  let (_, a1) := subborrow64 b a.2 0x7FFFFFFFFFFFFFFF
  let mask : UInt64 := (0 : UInt64) - (a1 >>> 63)
  let (b, a0) := addcarry64 false a0 mask
  let (_, a1) := addcarry64 b a1 (0x7FFFFFFFFFFFFFFF &&& mask)
  (a0, a1)

/-- `fpadd1271`. -/
def fpadd1271 (a b : Limbs) : Limbs :=
  let (cc, c0) := addcarry64 false a.1 b.1
  let (_, c1) := addcarry64 cc a.2 b.2
  let (cc, c0) := addcarry64 false c0 (c1 >>> 63)
  let (_, c1) := addcarry64 cc (c1 &&& 0x7FFFFFFFFFFFFFFF) 0
  (c0, c1)

/-- `fpsub1271`. -/
def fpsub1271 (a b : Limbs) : Limbs :=
  let (bb, c0) := subborrow64 false a.1 b.1
  let (_, c1) := subborrow64 bb a.2 b.2
  let (bb, c0) := subborrow64 false c0 (c1 >>> 63)
  let (_, c1) := subborrow64 bb (c1 &&& 0x7FFFFFFFFFFFFFFF) 0
  (c0, c1)

/-- `fpneg1271`. -/
def fpneg1271 (a : Limbs) : Limbs := (~~~a.1, 0x7FFFFFFFFFFFFFFF - a.2)

/-- The end of `fpmul1271` and `fpsqr1271`: from the low product word `tt1`, the middle
words `tt2` and the high product words `tt3`, to the result. -/
def fpreduce1271 (tt1 : UInt64) (tt2 tt3 : Limbs) : Limbs :=
  let tt3 := (tt3.1, shiftleft128 tt3.1 tt3.2 1)
  let (cc, tt30) := addcarry64 false (shiftright128 tt2.1 tt2.2 63) (tt3.1 <<< 1)
  let (_, tt31) := addcarry64 cc (tt2.2 >>> 63) tt3.2
  let (cc, tt10) := addcarry64 false tt1 tt30
  let (_, tt11) := addcarry64 cc (tt2.1 &&& 0x7FFFFFFFFFFFFFFF) tt31
  let (cc, c0) := addcarry64 false tt10 (tt11 >>> 63)
  let (_, c1) := addcarry64 cc (tt11 &&& 0x7FFFFFFFFFFFFFFF) 0
  (c0, c1)

/-- `fpmul1271`, portable build. -/
def fpmul1271 (a b : Limbs) : Limbs :=
  let (tt10, tt30) := umul128 a.1 b.1
  let (tt20, tt21) := umul128 a.1 b.2
  let (cc, tt20) := addcarry64 false tt20 tt30
  let (_, tt21) := addcarry64 cc tt21 0
  let (tt30, tt31) := umul128 a.2 b.1
  let (cc, tt20) := addcarry64 false tt20 tt30
  let (_, tt21) := addcarry64 cc tt21 tt31
  fpreduce1271 tt10 (tt20, tt21) (umul128 a.2 b.2)

/-- `fpsqr1271`, portable build. -/
def fpsqr1271 (a : Limbs) : Limbs :=
  let (tt10, tt30) := umul128 a.1 a.1
  let (tt20, tt21) := umul128 a.1 a.2
  let (cc, tt30) := addcarry64 false tt20 tt30
  let (_, tt31) := addcarry64 cc tt21 0
  let (cc, tt20) := addcarry64 false tt20 tt30
  let (_, tt21) := addcarry64 cc tt21 tt31
  fpreduce1271 tt10 (tt20, tt21) (umul128 a.2 a.2)

/-- The halving of `fp2div1271` and of `decode`. -/
def fphalf1271 (a : Limbs) : Limbs :=
  let mask : UInt64 := (0 : UInt64) - ((1 : UInt64) &&& a.1)
  let (cc, temp0) := addcarry64 false a.1 mask
  let (_, temp1) := addcarry64 cc a.2 (mask >>> 1)
  (shiftright128 temp0 temp1 1, temp1 >>> 1)

end Raw

/-! ## The operations over the natural numbers -/

theorem addcarry64_of_eq {cin c : Bool} {a b s : UInt64} (h : addcarry64 cin a b = (c, s)) :
    s.toNat + 2 ^ 64 * c.toNat = a.toNat + b.toNat + cin.toNat := by
  have heq := addcarry64_eq cin a b
  rwa [h] at heq

theorem subborrow64_of_eq {bin c : Bool} {a b s : UInt64} (h : subborrow64 bin a b = (c, s)) :
    s.toNat + b.toNat + bin.toNat = a.toNat + 2 ^ 64 * c.toNat := by
  have heq := subborrow64_eq bin a b
  rwa [h] at heq

theorem umul128_of_eq {a b lo hi : UInt64} (h : umul128 a b = (lo, hi)) :
    lo.toNat + 2 ^ 64 * hi.toNat = a.toNat * b.toNat := by
  have heq := umul128_eq a b
  rwa [h] at heq

theorem toNat_shiftRight63 (a : UInt64) : (a >>> 63).toNat = a.toNat / 2 ^ 63 :=
  toNat_shiftRight a (show 63 < 64 by decide)

theorem toNat_and_low63 (a : UInt64) : (a &&& 0x7FFFFFFFFFFFFFFF).toNat = a.toNat % 2 ^ 63 :=
  toNat_and_mask (n := 63) a rfl

theorem toNat_shiftLeft1 (a : UInt64) : (a <<< 1).toNat = a.toNat % 2 ^ 63 * 2 :=
  toNat_shiftLeft a (show 1 < 64 by decide)

namespace Raw

/-- The top bit `q` of a 128-bit number and the rest `r`. -/
theorem split_eq (a0 a1 : UInt64) :
    ∃ q r, q ≤ 1 ∧ r < 2 ^ 127 ∧ wide a0 a1 = r + 2 ^ 127 * q ∧ (a1 >>> 63).toNat = q ∧
      wide a0 (a1 &&& 0x7FFFFFFFFFFFFFFF) = r := by
  have ha0 := a0.toNat_lt
  have ha1 := a1.toNat_lt
  rw [toNat_shiftRight63, wide, wide, toNat_and_low63]
  exact ⟨a1.toNat / 2 ^ 63, a0.toNat + 2 ^ 64 * (a1.toNat % 2 ^ 63), by omega, by omega, by omega,
    rfl, rfl⟩

/-- A 128-bit number folded once: its top bit `q` is added to the rest `r`. -/
theorem fold_eq {a0 a1 c0 c1 : UInt64} {cc cc' : Bool}
    (h0 : addcarry64 false a0 (a1 >>> 63) = (cc, c0))
    (h1 : addcarry64 cc (a1 &&& 0x7FFFFFFFFFFFFFFF) 0 = (cc', c1)) :
    ∃ q r, q ≤ 1 ∧ r < 2 ^ 127 ∧ wide a0 a1 = r + 2 ^ 127 * q ∧ wide c0 c1 = r + q := by
  have e0 := addcarry64_of_eq h0
  have e1 := addcarry64_of_eq h1
  have hc0 := c0.toNat_lt
  have hc1 := c1.toNat_lt
  have hz : (0 : UInt64).toNat = 0 := rfl
  have hf : false.toNat = 0 := rfl
  obtain ⟨q, r, hq, hr, hsplit, hbit, hrest⟩ := split_eq a0 a1
  refine ⟨q, r, hq, hr, hsplit, ?_⟩
  simp only [wide] at hrest ⊢
  omega

/-- `fpadd1271`: the sum, less p when bit 127 is set. -/
theorem value_fpadd1271 {a b : Limbs} (ha : Limbs.value a ≤ p1271) (hb : Limbs.value b ≤ p1271) :
    Limbs.value (fpadd1271 a b) = if Limbs.value a + Limbs.value b ≤ p1271
      then Limbs.value a + Limbs.value b else Limbs.value a + Limbs.value b - p1271 := by
  rcases h0 : addcarry64 false a.1 b.1 with ⟨cc, c0⟩
  rcases h1 : addcarry64 cc a.2 b.2 with ⟨cc1, c1⟩
  rcases h2 : addcarry64 false c0 (c1 >>> 63) with ⟨cc2, d0⟩
  rcases h3 : addcarry64 cc2 (c1 &&& 0x7FFFFFFFFFFFFFFF) 0 with ⟨cc3, d1⟩
  obtain ⟨q, r, hq, hr, hqr, hfold⟩ := fold_eq h2 h3
  have e0 := addcarry64_of_eq h0
  have e1 := addcarry64_of_eq h1
  have hc1 := c1.toNat_lt
  have hf : false.toNat = 0 := rfl
  simp only [fpadd1271, h0, h1, h2, h3]
  by_cases hle : Limbs.value a + Limbs.value b ≤ p1271
  · rw [if_pos hle]
    simp only [Limbs.value, wide, p1271] at *
    omega
  · rw [if_neg hle]
    simp only [Limbs.value, wide, p1271] at *
    omega

/-- A 128-bit number folded once the other way: its top bit `q` is taken from the rest `r`. -/
theorem unfold_eq {a0 a1 c0 c1 : UInt64} {bb bb' : Bool}
    (h0 : subborrow64 false a0 (a1 >>> 63) = (bb, c0))
    (h1 : subborrow64 bb (a1 &&& 0x7FFFFFFFFFFFFFFF) 0 = (bb', c1)) :
    ∃ q r, q ≤ 1 ∧ r < 2 ^ 127 ∧ wide a0 a1 = r + 2 ^ 127 * q ∧
      wide c0 c1 + q = r + 2 ^ 128 * bb'.toNat := by
  have e0 := subborrow64_of_eq h0
  have e1 := subborrow64_of_eq h1
  have hc0 := c0.toNat_lt
  have hc1 := c1.toNat_lt
  have hz : (0 : UInt64).toNat = 0 := rfl
  have hf : false.toNat = 0 := rfl
  obtain ⟨q, r, hq, hr, hsplit, hbit, hrest⟩ := split_eq a0 a1
  refine ⟨q, r, hq, hr, hsplit, ?_⟩
  simp only [wide] at hrest ⊢
  omega

/-- `fpsub1271`: the difference, plus p when it is negative. -/
theorem value_fpsub1271 {a b : Limbs} (ha : Limbs.value a ≤ p1271) (hb : Limbs.value b ≤ p1271) :
    Limbs.value (fpsub1271 a b) = if Limbs.value b ≤ Limbs.value a
      then Limbs.value a - Limbs.value b else Limbs.value a + p1271 - Limbs.value b := by
  rcases h0 : subborrow64 false a.1 b.1 with ⟨bb, c0⟩
  rcases h1 : subborrow64 bb a.2 b.2 with ⟨bb1, c1⟩
  rcases h2 : subborrow64 false c0 (c1 >>> 63) with ⟨bb2, d0⟩
  rcases h3 : subborrow64 bb2 (c1 &&& 0x7FFFFFFFFFFFFFFF) 0 with ⟨bb3, d1⟩
  obtain ⟨q, r, hq, hr, hqr, hfold⟩ := unfold_eq h2 h3
  have hdiff : wide c0 c1 + Limbs.value b = Limbs.value a + 2 ^ 128 * bb1.toNat := by
    have e0 := subborrow64_of_eq h0
    have e1 := subborrow64_of_eq h1
    have hf : false.toNat = 0 := rfl
    simp only [Limbs.value, wide]
    omega
  have hbb1 := bb1.toNat_le
  have hbb3 := bb3.toNat_le
  have hd := wide_lt d0 d1
  have hp : p1271 = 2 ^ 127 - 1 := rfl
  simp only [fpsub1271, h0, h1, h2, h3]
  show wide d0 d1 = _
  by_cases hle : Limbs.value b ≤ Limbs.value a
  · rw [if_pos hle]
    omega
  · rw [if_neg hle]
    omega

/-- `fpneg1271`: no limb borrows, and 0 goes to p. -/
theorem value_fpneg1271 {a : Limbs} (ha : Limbs.value a ≤ p1271) :
    Limbs.value (fpneg1271 a) = p1271 - Limbs.value a := by
  have ha0 := a.1.toNat_lt
  have ha1 : a.2.toNat ≤ (0x7FFFFFFFFFFFFFFF : UInt64).toNat := by
    show a.2.toNat ≤ 2 ^ 63 - 1
    simp only [Limbs.value, wide, p1271] at ha
    omega
  have hlow : (~~~a.1).toNat = 2 ^ 64 - 1 - a.1.toNat := UInt64.toNat_not a.1
  have hhigh : (0x7FFFFFFFFFFFFFFF - a.2).toNat = 2 ^ 63 - 1 - a.2.toNat :=
    UInt64.toNat_sub_of_le _ _ (UInt64.le_iff_toNat_le.mpr ha1)
  simp only [fpneg1271, Limbs.value, wide, p1271, hlow, hhigh] at *
  omega

/-- p added under the mask of a bit `s`. -/
theorem maskedAdd_eq {s c0 c1 d0 d1 : UInt64} {cc cc' : Bool} (hs : s = 0 ∨ s = 1)
    (h0 : addcarry64 false c0 ((0 : UInt64) - s) = (cc, d0))
    (h1 : addcarry64 cc c1 (0x7FFFFFFFFFFFFFFF &&& ((0 : UInt64) - s)) = (cc', d1)) :
    wide d0 d1 + 2 ^ 128 * cc'.toNat = wide c0 c1 + s.toNat * p1271 := by
  have e0 := addcarry64_of_eq h0
  have e1 := addcarry64_of_eq h1
  have hf : false.toNat = 0 := rfl
  cases hs with
  | inl hs =>
    subst hs
    have hn0 : ((0 : UInt64) - 0).toNat = 0 := rfl
    have hn1 : (0x7FFFFFFFFFFFFFFF &&& ((0 : UInt64) - 0)).toNat = 0 := rfl
    have hz : (0 : UInt64).toNat * p1271 = 0 := Nat.zero_mul _
    simp only [wide]
    omega
  | inr hs =>
    subst hs
    have hn0 : ((0 : UInt64) - 1).toNat = 2 ^ 64 - 1 := rfl
    have hn1 : (0x7FFFFFFFFFFFFFFF &&& ((0 : UInt64) - 1)).toNat = 2 ^ 63 - 1 := rfl
    have hz : (1 : UInt64).toNat = 1 := rfl
    simp only [wide, p1271]
    omega

/-- `mod1271`: p becomes 0, every other value stays. -/
theorem value_mod1271 {a : Limbs} (ha : Limbs.value a ≤ p1271) :
    Limbs.value (mod1271 a) = Limbs.value a % p1271 := by
  rcases h0 : subborrow64 false a.1 0xFFFFFFFFFFFFFFFF with ⟨b, c0⟩
  rcases h1 : subborrow64 b a.2 0x7FFFFFFFFFFFFFFF with ⟨b1, c1⟩
  rcases h2 : addcarry64 false c0 ((0 : UInt64) - (c1 >>> 63)) with ⟨b2, d0⟩
  rcases h3 : addcarry64 b2 c1 ((0x7FFFFFFFFFFFFFFF : UInt64) &&& ((0 : UInt64) - (c1 >>> 63)))
    with ⟨b3, d1⟩
  have hdiff : wide c0 c1 + p1271 = Limbs.value a + 2 ^ 128 * b1.toNat := by
    have e0 := subborrow64_of_eq h0
    have e1 := subborrow64_of_eq h1
    have hf : false.toNat = 0 := rfl
    have hm0 : (0xFFFFFFFFFFFFFFFF : UInt64).toNat = 2 ^ 64 - 1 := rfl
    have hm1 : (0x7FFFFFFFFFFFFFFF : UInt64).toNat = 2 ^ 63 - 1 := rfl
    simp only [Limbs.value, wide, p1271]
    omega
  have hsign : (c1 >>> 63).toNat = wide c0 c1 / 2 ^ 127 := by
    have hc0 := c0.toNat_lt
    rw [toNat_shiftRight63]
    simp only [wide]
    omega
  have hb1 := b1.toNat_le
  have hb3 := b3.toNat_le
  have hc := wide_lt c0 c1
  have hd := wide_lt d0 d1
  have hp127 : p1271 = 2 ^ 127 - 1 := rfl
  simp only [mod1271, h0, h1, h2, h3]
  show wide d0 d1 = _
  -- the difference is negative unless the value is p, and then it is 0
  by_cases hp : Limbs.value a = p1271
  · have hz : c1 >>> 63 = 0 := by
      refine UInt64.toNat_inj.mp (hsign.trans ?_)
      show _ = 0
      omega
    have hadd := maskedAdd_eq (Or.inl hz) h2 h3
    rw [hz, show (0 : UInt64).toNat = 0 from rfl] at hadd
    rw [hp, Nat.mod_self]
    omega
  · have hz : c1 >>> 63 = 1 := by
      refine UInt64.toNat_inj.mp (hsign.trans ?_)
      show _ = 1
      omega
    have hadd := maskedAdd_eq (Or.inr hz) h2 h3
    rw [hz, show (1 : UInt64).toNat = 1 from rfl] at hadd
    rw [Nat.mod_eq_of_lt (Nat.lt_of_le_of_ne ha hp)]
    omega

/-- A product `tt1 + 2^64 tt2 + 2^128 tt3` is cut at bit 127, its two parts are added, and the
top bit `q` of the sum is added to the rest `r`. -/
theorem fpreduce1271_fold {tt1 : UInt64} {tt2 tt3 : Limbs}
    (hprod : tt1.toNat + 2 ^ 64 * Limbs.value tt2 + 2 ^ 128 * Limbs.value tt3 ≤ p1271 * p1271) :
    ∃ high low q r, q ≤ 1 ∧ r < 2 ^ 127 ∧ low < 2 ^ 127 ∧ high ≤ p1271 ∧
      low + high = r + 2 ^ 127 * q ∧
      tt1.toNat + 2 ^ 64 * Limbs.value tt2 + 2 ^ 128 * Limbs.value tt3 = low + 2 ^ 127 * high ∧
      Limbs.value (fpreduce1271 tt1 tt2 tt3) = r + q := by
  rcases h0 : addcarry64 false (shiftright128 tt2.1 tt2.2 63) (tt3.1 <<< 1) with ⟨cc0, s0⟩
  rcases h1 : addcarry64 cc0 (tt2.2 >>> 63) (shiftleft128 tt3.1 tt3.2 1) with ⟨cc1, s1⟩
  rcases h2 : addcarry64 false tt1 s0 with ⟨cc2, t0⟩
  rcases h3 : addcarry64 cc2 (tt2.1 &&& 0x7FFFFFFFFFFFFFFF) s1 with ⟨cc3, t1⟩
  rcases h4 : addcarry64 false t0 (t1 >>> 63) with ⟨cc4, c0⟩
  rcases h5 : addcarry64 cc4 (t1 &&& 0x7FFFFFFFFFFFFFFF) 0 with ⟨cc5, c1⟩
  obtain ⟨q, r, hq, hr, hqr, hfold⟩ := fold_eq h4 h5
  have hp : p1271 * p1271 < 2 ^ 127 * p1271 := by decide
  -- the part from bit 127 on
  have hhigh : wide s0 s1 = Limbs.value tt2 / 2 ^ 63 + 2 * Limbs.value tt3 := by
    have e0 := addcarry64_of_eq h0
    have e1 := addcarry64_of_eq h1
    have hs0 := s0.toNat_lt
    have hs1 := s1.toNat_lt
    have h20 := tt2.1.toNat_lt
    have h21 := tt2.2.toNat_lt
    have h30 := tt3.1.toNat_lt
    have h31 := tt3.2.toNat_lt
    have hf : false.toNat = 0 := rfl
    rw [shiftright128_eq _ _ (by decide) (by decide), toNat_shiftLeft1] at e0
    rw [shiftleft128_eq _ _ (by decide) (by decide), toNat_shiftRight63] at e1
    simp only [Limbs.value, wide, p1271] at *
    omega
  -- the part below bit 127
  have hsum : wide t0 t1 = tt1.toNat + 2 ^ 64 * (tt2.1.toNat % 2 ^ 63) + wide s0 s1 := by
    have e2 := addcarry64_of_eq h2
    have e3 := addcarry64_of_eq h3
    have ht0 := t0.toNat_lt
    have ht1 := t1.toNat_lt
    have htt1 := tt1.toNat_lt
    have hf : false.toNat = 0 := rfl
    rw [toNat_and_low63] at e3
    simp only [Limbs.value, wide, p1271] at *
    omega
  have hmid : Limbs.value tt2 = tt2.1.toNat % 2 ^ 63 + 2 ^ 63 * (Limbs.value tt2 / 2 ^ 63) := by
    simp only [Limbs.value, wide]
    omega
  refine ⟨wide s0 s1, tt1.toNat + 2 ^ 64 * (tt2.1.toNat % 2 ^ 63), q, r, hq, hr, ?_, ?_, ?_, ?_, ?_⟩
  · have htt1 := tt1.toNat_lt
    omega
  · simp only [p1271] at *
    omega
  · rw [← hsum, hqr]
  · omega
  · simp only [fpreduce1271, h0, h1, h2, h3, h4, h5]
    exact hfold

theorem value_fpreduce1271 {tt1 : UInt64} {tt2 tt3 : Limbs}
    (hprod : tt1.toNat + 2 ^ 64 * Limbs.value tt2 + 2 ^ 128 * Limbs.value tt3 ≤ p1271 * p1271) :
    Limbs.value (fpreduce1271 tt1 tt2 tt3) ≤ p1271 ∧
      Limbs.value (fpreduce1271 tt1 tt2 tt3) ≡
        tt1.toNat + 2 ^ 64 * Limbs.value tt2 + 2 ^ 128 * Limbs.value tt3 [MOD p1271] := by
  obtain ⟨high, low, q, r, hq, hr, hlow, hhigh, hsum, hsplit, hvalue⟩ := fpreduce1271_fold hprod
  have hmod : low + 2 ^ 127 * high = (r + q) + p1271 * (q + high) := by
    simp only [p1271] at *
    omega
  rw [hvalue, hsplit, hmod]
  constructor
  · simp only [p1271] at *
    omega
  · show (r + q) % p1271 = _
    rw [Nat.add_mul_mod_self_left]

/-- Only the product 0 is reduced to 0. -/
theorem fpreduce1271_eq_zero_iff {tt1 : UInt64} {tt2 tt3 : Limbs}
    (hprod : tt1.toNat + 2 ^ 64 * Limbs.value tt2 + 2 ^ 128 * Limbs.value tt3 ≤ p1271 * p1271) :
    Limbs.value (fpreduce1271 tt1 tt2 tt3) = 0 ↔
      tt1.toNat + 2 ^ 64 * Limbs.value tt2 + 2 ^ 128 * Limbs.value tt3 = 0 := by
  obtain ⟨high, low, q, r, hq, hr, hlow, hhigh, hsum, hsplit, hvalue⟩ := fpreduce1271_fold hprod
  omega

/-- The four limb products of two numbers. -/
theorem value_mul_value (a b : Limbs) : Limbs.value a * Limbs.value b
    = a.1.toNat * b.1.toNat + 2 ^ 64 * (a.1.toNat * b.2.toNat + a.2.toNat * b.1.toNat)
      + 2 ^ 128 * (a.2.toNat * b.2.toNat) := by
  simp only [Limbs.value, wide]
  ring

/-- A product of a full limb and a limb below 2^63. -/
theorem limb_mul_le {a b : Nat} (ha : a < 2 ^ 64) (hb : b < 2 ^ 63) :
    a * b ≤ (2 ^ 64 - 1) * (2 ^ 63 - 1) :=
  Nat.mul_le_mul (Nat.le_sub_one_of_lt ha) (Nat.le_sub_one_of_lt hb)

/-- The middle columns of a product: the high word `x1` of the first, and two products whose sum
leaves no carry. -/
theorem columns_eq {x1 y0 y1 z0 z1 s0 s1 t0 t1 : UInt64} {cc0 cc1 cc2 cc3 : Bool}
    (h0 : addcarry64 false y0 x1 = (cc0, s0)) (h1 : addcarry64 cc0 y1 0 = (cc1, s1))
    (e2 : t0.toNat + 2 ^ 64 * cc2.toNat = s0.toNat + z0.toNat)
    (e3 : t1.toNat + 2 ^ 64 * cc3.toNat = s1.toNat + z1.toNat + cc2.toNat)
    (hlt : x1.toNat + wide y0 y1 + wide z0 z1 < 2 ^ 128) :
    wide t0 t1 = x1.toNat + wide y0 y1 + wide z0 z1 := by
  have e0 := addcarry64_of_eq h0
  have e1 := addcarry64_of_eq h1
  have hs0 := s0.toNat_lt
  have hs1 := s1.toNat_lt
  have ht0 := t0.toNat_lt
  have ht1 := t1.toNat_lt
  have hf : false.toNat = 0 := rfl
  have hz : (0 : UInt64).toNat = 0 := rfl
  simp only [wide] at hlt ⊢
  omega

/-- `fpmul1271` reduces the product, which no carry has left. -/
theorem fpmul1271_eq_fpreduce1271 {a b : Limbs} (ha : Limbs.value a ≤ p1271)
    (hb : Limbs.value b ≤ p1271) : ∃ tt1 tt2 tt3, fpmul1271 a b = fpreduce1271 tt1 tt2 tt3 ∧
      Limbs.value a * Limbs.value b
        = tt1.toNat + 2 ^ 64 * Limbs.value tt2 + 2 ^ 128 * Limbs.value tt3 := by
  rcases h0 : umul128 a.1 b.1 with ⟨x0, x1⟩
  rcases h1 : umul128 a.1 b.2 with ⟨y0, y1⟩
  rcases h2 : addcarry64 false y0 x1 with ⟨cc0, s0⟩
  rcases h3 : addcarry64 cc0 y1 0 with ⟨cc1, s1⟩
  rcases h4 : umul128 a.2 b.1 with ⟨z0, z1⟩
  rcases h5 : addcarry64 false s0 z0 with ⟨cc2, t0⟩
  rcases h6 : addcarry64 cc2 s1 z1 with ⟨cc3, t1⟩
  have hmid : x0.toNat + 2 ^ 64 * wide t0 t1
      = a.1.toNat * b.1.toNat + 2 ^ 64 * (a.1.toNat * b.2.toNat + a.2.toNat * b.1.toNat) := by
    have hl0 := limb_mul_le a.1.toNat_lt (high_lt hb)
    have hl1 := limb_mul_le b.1.toNat_lt (high_lt ha)
    rw [Nat.mul_comm b.1.toNat] at hl1
    have hx := umul128_of_eq h0
    have hy : wide y0 y1 = a.1.toNat * b.2.toNat := umul128_of_eq h1
    have hz : wide z0 z1 = a.2.toNat * b.1.toNat := umul128_of_eq h4
    have hx1 := x1.toNat_lt
    rw [columns_eq h2 h3 (addcarry64_of_eq h5) (addcarry64_of_eq h6) (by omega)]
    omega
  have hhigh : Limbs.value (umul128 a.2 b.2) = a.2.toNat * b.2.toNat := umul128_eq a.2 b.2
  refine ⟨x0, (t0, t1), umul128 a.2 b.2, ?_, ?_⟩
  · simp only [fpmul1271, h0, h1, h2, h3, h4, h5, h6]
  · rw [value_mul_value, ← hmid, ← hhigh]
    rfl

/-- `fpmul1271`: the product, reduced to `[0, p]`. -/
theorem value_fpmul1271 {a b : Limbs} (ha : Limbs.value a ≤ p1271) (hb : Limbs.value b ≤ p1271) :
    Limbs.value (fpmul1271 a b) ≤ p1271 ∧
      Limbs.value (fpmul1271 a b) ≡ Limbs.value a * Limbs.value b [MOD p1271] := by
  obtain ⟨tt1, tt2, tt3, hmul, hprod⟩ := fpmul1271_eq_fpreduce1271 ha hb
  rw [hmul, hprod]
  apply value_fpreduce1271
  rw [← hprod]
  exact Nat.mul_le_mul ha hb

/-- `fpmul1271` is 0 only for a factor 0. -/
theorem fpmul1271_eq_zero_iff {a b : Limbs} (ha : Limbs.value a ≤ p1271)
    (hb : Limbs.value b ≤ p1271) :
    Limbs.value (fpmul1271 a b) = 0 ↔ Limbs.value a = 0 ∨ Limbs.value b = 0 := by
  obtain ⟨tt1, tt2, tt3, hmul, hprod⟩ := fpmul1271_eq_fpreduce1271 ha hb
  have hle := Nat.mul_le_mul ha hb
  rw [hprod] at hle
  rw [hmul, fpreduce1271_eq_zero_iff hle, ← hprod, Nat.mul_eq_zero]

/-- `fpsqr1271`: the square, reduced to `[0, p]`. -/
theorem value_fpsqr1271 {a : Limbs} (ha : Limbs.value a ≤ p1271) :
    Limbs.value (fpsqr1271 a) ≤ p1271 ∧
      Limbs.value (fpsqr1271 a) ≡ Limbs.value a * Limbs.value a [MOD p1271] := by
  rcases h0 : umul128 a.1 a.1 with ⟨x0, x1⟩
  rcases h1 : umul128 a.1 a.2 with ⟨y0, y1⟩
  rcases h2 : addcarry64 false y0 x1 with ⟨cc0, s0⟩
  rcases h3 : addcarry64 cc0 y1 0 with ⟨cc1, s1⟩
  rcases h4 : addcarry64 false y0 s0 with ⟨cc2, t0⟩
  rcases h5 : addcarry64 cc2 y1 s1 with ⟨cc3, t1⟩
  have hmid : x0.toNat + 2 ^ 64 * wide t0 t1
      = a.1.toNat * a.1.toNat + 2 ^ 64 * (a.1.toNat * a.2.toNat + a.2.toNat * a.1.toNat) := by
    have hl := limb_mul_le a.1.toNat_lt (high_lt ha)
    have hx := umul128_of_eq h0
    have hy : wide y0 y1 = a.1.toNat * a.2.toNat := umul128_of_eq h1
    have hx1 := x1.toNat_lt
    -- the source adds the sum to the product here, and the product to the sum in `fpmul1271`
    have e4 := (addcarry64_of_eq h4).trans (congrArg (· + false.toNat) (Nat.add_comm _ _))
    have e5 := (addcarry64_of_eq h5).trans (congrArg (· + cc2.toNat) (Nat.add_comm _ _))
    rw [columns_eq h2 h3 e4 e5 (by omega), Nat.mul_comm a.2.toNat]
    omega
  have hhigh : Limbs.value (umul128 a.2 a.2) = a.2.toNat * a.2.toNat := umul128_eq a.2 a.2
  have hprod := value_mul_value a a
  rw [← hmid, ← hhigh] at hprod
  simp only [fpsqr1271, h0, h1, h2, h3, h4, h5]
  rw [hprod]
  apply value_fpreduce1271
  show x0.toNat + 2 ^ 64 * wide t0 t1 + _ ≤ _
  rw [← hprod]
  exact Nat.mul_le_mul ha ha

/-- An even sum, halved. -/
theorem halve_eq {a : Limbs} {m t0 t1 : UInt64} {cc cc' : Bool} {n : Nat}
    (hn : 2 * n = Limbs.value a + m.toNat + 2 ^ 64 * (m >>> 1).toNat) (hlt : n < 2 ^ 127)
    (h0 : addcarry64 false a.1 m = (cc, t0)) (h1 : addcarry64 cc a.2 (m >>> 1) = (cc', t1)) :
    Limbs.value (shiftright128 t0 t1 1, t1 >>> 1) = n := by
  have e0 := addcarry64_of_eq h0
  have e1 := addcarry64_of_eq h1
  have ht0 := t0.toNat_lt
  have ht1 := t1.toNat_lt
  have hf : false.toNat = 0 := rfl
  have hhigh : (t1 >>> 1).toNat = t1.toNat / 2 := toNat_shiftRight t1 (show 1 < 64 by decide)
  simp only [wide, Limbs.value, shiftright128_eq t0 t1 (show 0 < 1 by decide) (by decide),
    hhigh] at *
  omega

/-- The halving: an odd value is made even by adding p. -/
theorem value_fphalf1271 {a : Limbs} (ha : Limbs.value a ≤ p1271) :
    2 * Limbs.value (fphalf1271 a) = Limbs.value a + p1271 * (Limbs.value a % 2) := by
  have hbit : ((1 : UInt64) &&& a.1).toNat = Limbs.value a % 2 := by
    rw [UInt64.and_comm, toNat_and_mask (n := 1) a.1 rfl]
    simp only [Limbs.value, wide]
    omega
  have hp : p1271 = 2 ^ 127 - 1 := rfl
  -- the mask is 0 or all ones; with its low 127 bits it is 0 or p
  rcases Nat.mod_two_eq_zero_or_one (Limbs.value a) with hpar | hpar
  · have hone : (1 : UInt64) &&& a.1 = 0 := UInt64.toNat_inj.mp (by rw [hbit, hpar]; rfl)
    rcases h0 : addcarry64 false a.1 ((0 : UInt64) - 0) with ⟨cc, t0⟩
    rcases h1 : addcarry64 cc a.2 (((0 : UInt64) - 0) >>> 1) with ⟨cc', t1⟩
    have hm0 : ((0 : UInt64) - 0).toNat = 0 := rfl
    have hm1 : (((0 : UInt64) - 0) >>> 1).toNat = 0 := rfl
    simp only [fphalf1271, hone, h0, h1]
    rw [hpar, halve_eq (n := Limbs.value a / 2) (by omega) (by omega) h0 h1]
    omega
  · have hone : (1 : UInt64) &&& a.1 = 1 := UInt64.toNat_inj.mp (by rw [hbit, hpar]; rfl)
    rcases h0 : addcarry64 false a.1 ((0 : UInt64) - 1) with ⟨cc, t0⟩
    rcases h1 : addcarry64 cc a.2 (((0 : UInt64) - 1) >>> 1) with ⟨cc', t1⟩
    have hm0 : ((0 : UInt64) - 1).toNat = 2 ^ 64 - 1 := rfl
    have hm1 : (((0 : UInt64) - 1) >>> 1).toNat = 2 ^ 63 - 1 := rfl
    simp only [fphalf1271, hone, h0, h1]
    rw [hpar, halve_eq (n := (Limbs.value a + p1271) / 2) (by omega) (by omega) h0 h1]
    omega

end Raw

end ZkQuorum.Crypto
