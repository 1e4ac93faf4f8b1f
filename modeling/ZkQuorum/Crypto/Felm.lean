import ZkQuorum.Crypto.Field
import Mathlib.FieldTheory.Finite.Basic
import Mathlib.NumberTheory.LucasLehmer

/-!
# Field elements in the two builds (crypto/src/riscv_fourq_verify.c, methods/guest/src/bigint2.rs)

`Felm` is a `felm_t` with bit 127 clear, and `Felm.toFp` the residue it stands for.
The portable build computes on limbs; with `ZKQ_BIGINT2` products and inverses come
from the shims, which return the representative below p. The two builds differ on the
representation of zero and on nothing else: each `toFp_...` lemma holds in both.
-/

namespace ZkQuorum.Crypto

/-- The field GF(p). -/
abbrev Fp := ZMod p1271

instance : Fact p1271.Prime := ⟨lucas_lehmer_sufficiency 127 (by decide) (by norm_num)⟩

/-- A `felm_t` with bit 127 clear. -/
structure Felm where
  limbs : Limbs
  le : Limbs.value limbs ≤ p1271
deriving DecidableEq

/-- How the field arithmetic is compiled: without or with `ZKQ_BIGINT2`. -/
inductive Build where
  | portable
  | bigint2

namespace Felm

/-- The number that a field element spells, in `[0, p]`. -/
def value (a : Felm) : Nat := Limbs.value a.limbs

/-- The residue that a field element stands for. -/
def toFp (a : Felm) : Fp := (a.value : Fp)

/-- The limbs of a number below 2^128. -/
def limbsOf (n : Nat) : Limbs := (UInt64.ofNat (n % 2 ^ 64), UInt64.ofNat (n / 2 ^ 64))

theorem val_lt (x : Fp) : x.val < 2 ^ 127 - 1 := ZMod.val_lt x

theorem value_limbsOf {n : Nat} (h : n < 2 ^ 128) : Limbs.value (limbsOf n) = n := by
  rw [Limbs.value_eq]
  show (UInt64.ofNat (n % 2 ^ 64)).toNat + 2 ^ 64 * (UInt64.ofNat (n / 2 ^ 64)).toNat = n
  have hlo : (UInt64.ofNat (n % 2 ^ 64)).toNat = n % 2 ^ 64 :=
    UInt64.toNat_ofNat_of_lt' (Nat.mod_lt _ (by decide))
  have hhi : (UInt64.ofNat (n / 2 ^ 64)).toNat = n / 2 ^ 64 :=
    UInt64.toNat_ofNat_of_lt' (Nat.div_lt_of_lt_mul h)
  rw [hlo, hhi, Nat.mod_add_div]

/-- The representative of a residue in `[0, p - 1]`. -/
def ofFp (x : Fp) : Felm :=
  ⟨limbsOf x.val, by
    have hlt := val_lt x
    rw [value_limbsOf (by omega)]
    exact Nat.le_of_lt hlt⟩

/-- The constant 0 of the source. -/
def zero : Felm := ⟨(0, 0), by decide⟩

/-- The constant 1 of the source. -/
def one : Felm := ⟨(1, 0), by decide⟩

/-- The test `!a[0] && !a[1]`. -/
def isZero (a : Felm) : Bool := a.limbs.1 == 0 && a.limbs.2 == 0

theorem value_le (a : Felm) : a.value ≤ p1271 := a.le

theorem value_lt (a : Felm) : a.value < 2 ^ 127 := Nat.lt_of_le_of_lt a.value_le (by decide)

theorem ext_value {a b : Felm} (h : a.value = b.value) : a = b := by
  obtain ⟨a, ha⟩ := a
  obtain ⟨b, hb⟩ := b
  have hab : a = b := Limbs.value_inj h
  subst hab
  rfl

theorem value_ofFp (x : Fp) : (ofFp x).value = x.val := by
  have hlt := val_lt x
  exact value_limbsOf (by omega)

theorem toFp_ofFp (x : Fp) : (ofFp x).toFp = x := by
  rw [toFp, value_ofFp, ZMod.natCast_zmod_val]

theorem value_ofFp_toFp (a : Felm) : (ofFp a.toFp).value = a.value % p1271 := by
  rw [value_ofFp, toFp, ZMod.val_natCast]

theorem toFp_eq_zero_iff {a : Felm} : a.toFp = 0 ↔ a.value = 0 ∨ a.value = p1271 := by
  have hle := a.value_lt
  rw [toFp, ZMod.natCast_eq_zero_iff]
  constructor
  · rintro ⟨k, hk⟩
    simp only [p1271] at *
    omega
  · rintro (h | h)
    · rw [h]
      exact Nat.dvd_zero _
    · rw [h]

theorem isZero_iff {a : Felm} : a.isZero ↔ a.value = 0 := by
  have h0 := UInt64.toNat_inj (a := a.limbs.1) (b := 0)
  have h1 := UInt64.toNat_inj (a := a.limbs.2) (b := 0)
  rw [isZero, Bool.and_eq_true, beq_iff_eq, beq_iff_eq, ← h0, ← h1, value, Limbs.value_eq]
  show a.limbs.1.toNat = 0 ∧ a.limbs.2.toNat = 0 ↔ _
  omega

theorem isZero_ofFp (x : Fp) : (ofFp x).isZero = decide (x = 0) := by
  rw [Bool.eq_iff_iff, isZero_iff, value_ofFp, decide_eq_true_eq, ZMod.val_eq_zero]

/-- Zero is the only residue with two representations. -/
theorem ofFp_toFp {a : Felm} (h : a.toFp ≠ 0) : ofFp a.toFp = a := by
  apply ext_value
  rw [value_ofFp_toFp]
  apply Nat.mod_eq_of_lt
  apply Nat.lt_of_le_of_ne a.value_le
  intro hp
  exact h (toFp_eq_zero_iff.mpr (.inr hp))

end Felm

open Felm

/-! ## The operations -/

/-- `mod1271`. -/
def mod1271 (a : Felm) : Felm :=
  ⟨Raw.mod1271 a.limbs, by
    rw [Raw.value_mod1271 a.value_le]
    exact Nat.le_of_lt (Nat.mod_lt _ (by decide))⟩

/-- `fpadd1271`. -/
def fpadd1271 (a b : Felm) : Felm :=
  ⟨Raw.fpadd1271 a.limbs b.limbs, by
    have ha := a.le
    have hb := b.le
    rw [Raw.value_fpadd1271 ha hb]
    split
    · assumption
    · omega⟩

/-- `fpsub1271`. -/
def fpsub1271 (a b : Felm) : Felm :=
  ⟨Raw.fpsub1271 a.limbs b.limbs, by
    have ha := a.le
    have hb := b.le
    rw [Raw.value_fpsub1271 ha hb]
    split
    · omega
    · omega⟩

/-- `fpneg1271`. -/
def fpneg1271 (a : Felm) : Felm :=
  ⟨Raw.fpneg1271 a.limbs, by
    rw [Raw.value_fpneg1271 a.value_le]
    exact Nat.sub_le _ _⟩

/-- The halving in `fp2div1271` and `decode`. -/
def fphalf1271 (a : Felm) : Felm :=
  ⟨Raw.fphalf1271 a.limbs, by
    have ha := a.le
    have h := Raw.value_fphalf1271 ha
    have hbit : Limbs.value a.limbs % 2 ≤ 1 := Nat.le_of_lt_succ (Nat.mod_lt _ (by decide))
    have hp := Nat.mul_le_mul_left p1271 hbit
    omega⟩

/-- `zkq_fpmul1271`: the product, below p. -/
def zkqFpmul1271 (a b : Felm) : Felm := ofFp (a.toFp * b.toFp)

/-- `zkq_fpinv1271`: the inverse, below p. -/
def zkqFpinv1271 (a : Felm) : Felm := ofFp a.toFp⁻¹

/-- `fpmul1271`. -/
def fpmul1271 (build : Build) (a b : Felm) : Felm :=
  match build with
  | .bigint2 => zkqFpmul1271 a b
  | .portable => ⟨Raw.fpmul1271 a.limbs b.limbs, (Raw.value_fpmul1271 a.value_le b.value_le).1⟩

/-- `fpsqr1271`. -/
def fpsqr1271 (build : Build) (a : Felm) : Felm :=
  match build with
  | .bigint2 => zkqFpmul1271 a a
  | .portable => ⟨Raw.fpsqr1271 a.limbs, (Raw.value_fpsqr1271 a.value_le).1⟩

section Exponent

variable (build : Build)

/-- `for (i = 0; i < n; i++) fpsqr1271(a, a)`. -/
def sqrn (n : Nat) (a : Felm) : Felm := (fpsqr1271 build)^[n] a

/-- `fpexp1251`. -/
def fpexp1251 (a : Felm) : Felm :=
  let t2 := fpsqr1271 build a
  let t2 := fpmul1271 build a t2
  let t3 := fpsqr1271 build t2
  let t3 := fpsqr1271 build t3
  let t3 := fpmul1271 build t2 t3
  let t4 := fpsqr1271 build t3
  let t4 := fpsqr1271 build t4
  let t4 := fpsqr1271 build t4
  let t4 := fpsqr1271 build t4
  let t4 := fpmul1271 build t3 t4
  let t5 := sqrn build 7 (fpsqr1271 build t4)
  let t5 := fpmul1271 build t4 t5
  let t2 := sqrn build 15 (fpsqr1271 build t5)
  let t2 := fpmul1271 build t5 t2
  let t1 := sqrn build 31 (fpsqr1271 build t2)
  let t1 := fpmul1271 build t2 t1
  let t1 := fpmul1271 build (sqrn build 32 t1) t2
  let t1 := fpmul1271 build t5 (sqrn build 16 t1)
  let t1 := fpmul1271 build t4 (sqrn build 8 t1)
  let t1 := fpmul1271 build t3 (sqrn build 4 t1)
  let t1 := fpsqr1271 build t1
  fpmul1271 build a t1

/-- `fpinv1271`. -/
def fpinv1271 (a : Felm) : Felm :=
  match build with
  | .bigint2 =>
    let t := mod1271 a
    if t.isZero then zero else zkqFpinv1271 t
  | .portable =>
    let t := fpexp1251 build a
    let t := fpsqr1271 build t
    let t := fpsqr1271 build t
    fpmul1271 build a t

end Exponent

/-! ## The residues they compute -/

@[simp]
theorem toFp_zero : zero.toFp = 0 := Nat.cast_zero

@[simp]
theorem toFp_one : one.toFp = 1 := Nat.cast_one

/-- `mod1271` gives the representative below p. -/
theorem mod1271_eq (a : Felm) : mod1271 a = ofFp a.toFp := by
  apply ext_value
  rw [value_ofFp_toFp]
  exact Raw.value_mod1271 a.value_le

@[simp]
theorem toFp_mod1271 (a : Felm) : (mod1271 a).toFp = a.toFp := by
  rw [mod1271_eq, toFp_ofFp]

theorem value_fpadd1271 (a b : Felm) : (fpadd1271 a b).value
    = if a.value + b.value ≤ p1271 then a.value + b.value else a.value + b.value - p1271 :=
  Raw.value_fpadd1271 a.value_le b.value_le

theorem value_fpsub1271 (a b : Felm) : (fpsub1271 a b).value
    = if b.value ≤ a.value then a.value - b.value else a.value + p1271 - b.value :=
  Raw.value_fpsub1271 a.value_le b.value_le

theorem value_fpneg1271 (a : Felm) : (fpneg1271 a).value = p1271 - a.value :=
  Raw.value_fpneg1271 a.value_le

theorem natCast_p1271 : (p1271 : Fp) = 0 := ZMod.natCast_self p1271

@[simp]
theorem toFp_fpadd1271 (a b : Felm) : (fpadd1271 a b).toFp = a.toFp + b.toFp := by
  rw [toFp, value_fpadd1271]
  split
  · exact Nat.cast_add _ _
  · rw [Nat.cast_sub (by omega), natCast_p1271, sub_zero]
    exact Nat.cast_add _ _

@[simp]
theorem toFp_fpsub1271 (a b : Felm) : (fpsub1271 a b).toFp = a.toFp - b.toFp := by
  have hb := b.value_le
  rw [toFp, value_fpsub1271]
  split
  · rename_i hle
    exact Nat.cast_sub hle
  · rw [Nat.cast_sub (Nat.le_add_left_of_le hb), Nat.cast_add, natCast_p1271, add_zero]
    rfl

@[simp]
theorem toFp_fpneg1271 (a : Felm) : (fpneg1271 a).toFp = -a.toFp := by
  rw [toFp, value_fpneg1271, Nat.cast_sub a.value_le, natCast_p1271, zero_sub]
  rfl

theorem two_ne_zero_fp : (2 : Fp) ≠ 0 := by
  show ((2 : Nat) : Fp) ≠ 0
  rw [Ne, ZMod.natCast_eq_zero_iff]
  decide

@[simp]
theorem toFp_fphalf1271 (a : Felm) : (fphalf1271 a).toFp = a.toFp / 2 := by
  have h : ((2 * (fphalf1271 a).value : Nat) : Fp) = (a.value + p1271 * (a.value % 2) : Nat) :=
    congrArg _ (Raw.value_fphalf1271 a.value_le)
  rw [Nat.cast_mul, Nat.cast_add, Nat.cast_mul, natCast_p1271, zero_mul, add_zero] at h
  rw [eq_div_iff two_ne_zero_fp, mul_comm]
  exact h

@[simp]
theorem toFp_zkqFpmul1271 (a b : Felm) : (zkqFpmul1271 a b).toFp = a.toFp * b.toFp := toFp_ofFp _

theorem cast_of_modEq {n m : Nat} (h : n ≡ m [MOD p1271]) : (n : Fp) = m :=
  (ZMod.natCast_eq_natCast_iff _ _ _).mpr h

@[simp]
theorem toFp_fpmul1271 (build : Build) (a b : Felm) :
    (fpmul1271 build a b).toFp = a.toFp * b.toFp := by
  cases build with
  | bigint2 => exact toFp_zkqFpmul1271 a b
  | portable =>
    have h := cast_of_modEq (Raw.value_fpmul1271 a.value_le b.value_le).2
    rw [Nat.cast_mul] at h
    exact h

@[simp]
theorem toFp_fpsqr1271 (build : Build) (a : Felm) :
    (fpsqr1271 build a).toFp = a.toFp * a.toFp := by
  cases build with
  | bigint2 => exact toFp_zkqFpmul1271 a a
  | portable =>
    have h := cast_of_modEq (Raw.value_fpsqr1271 a.value_le).2
    rw [Nat.cast_mul] at h
    exact h

@[simp]
theorem toFp_sqrn (build : Build) (n : Nat) (a : Felm) :
    (sqrn build n a).toFp = a.toFp ^ 2 ^ n := by
  induction n generalizing a with
  | zero => rw [pow_zero, pow_one]; rfl
  | succ n ih =>
    show (sqrn build n (fpsqr1271 build a)).toFp = _
    rw [ih, toFp_fpsqr1271, ← pow_two, ← pow_mul, ← pow_succ']

/-- The addition chain of `fpexp1251`. -/
@[simp]
theorem toFp_fpexp1251 (build : Build) (a : Felm) :
    (fpexp1251 build a).toFp = a.toFp ^ (2 ^ 125 - 1) := by
  simp only [fpexp1251, toFp_fpmul1271, toFp_fpsqr1271, toFp_sqrn, ← pow_succ',
    ← pow_mul, ← pow_add, ← pow_two]
  norm_num

/-- Fermat's little theorem. -/
theorem pow_sub_two_eq_inv (x : Fp) : x ^ (p1271 - 2) = x⁻¹ := by
  by_cases hx : x = 0
  · rw [hx, inv_zero]
    exact zero_pow (by decide)
  · apply eq_inv_of_mul_eq_one_left
    rw [← pow_succ]
    exact ZMod.pow_card_sub_one_eq_one hx

/-- The inverse of 0 is 0 in both builds. -/
@[simp]
theorem toFp_fpinv1271 (build : Build) (a : Felm) : (fpinv1271 build a).toFp = a.toFp⁻¹ := by
  cases build with
  | portable =>
    have hpow : (fpinv1271 .portable a).toFp = a.toFp ^ (p1271 - 2) := by
      simp only [fpinv1271, toFp_fpmul1271, toFp_fpsqr1271, toFp_fpexp1251, ← pow_two, ← pow_mul,
        ← pow_succ']
      norm_num
    rw [hpow]
    exact pow_sub_two_eq_inv a.toFp
  | bigint2 =>
    simp only [fpinv1271, mod1271_eq, isZero_ofFp]
    by_cases h : a.toFp = 0
    · rw [decide_eq_true h, if_pos rfl, h, inv_zero]
      exact toFp_zero
    · rw [decide_eq_false h, if_neg Bool.false_ne_true, zkqFpinv1271, toFp_ofFp, toFp_ofFp]

end ZkQuorum.Crypto
