import ZkQuorum.Crypto.Interleave
import ZkQuorum.Crypto.Multiples
import ZkQuorum.Crypto.Montgomery
import ZkQuorum.Lib.Pocklington
import Mathlib.Tactic.NormNum.Prime

/-!
# The order of the base point (crypto/src/riscv_tables.c)

The curve order times the first entry of `DOUBLE_SCALAR_TABLE` is the neutral point
(**`orderNat_nsmul_basePoint`**), so that a multiple of it depends only on the scalar modulo the
order. The multiple is computed on pairs of numbers, bit by bit. The curve order is a prime number
(**`prime_orderNat`**), so that different scalars below it have different multiples.
-/

namespace ZkQuorum.Crypto

section Ladder

variable {α : Type} (o : F2Ops α)

/-- Double and add, over the bits of a scalar from the highest down. -/
def ladder (Q : PointExtprojPrecomp α) : List Bool → PointExtproj α → PointExtproj α
  | [], T => T
  | b :: bits, T =>
    let T := eccdouble o T
    ladder Q bits (if b then eccadd o Q T else T)

end Ladder

/-- The number that bits spell below a number. -/
def ofBits (bits : List Bool) (n : Nat) : Nat := bits.foldl (fun n b => 2 * n + b.toNat) n

/-- The low bits of a number from the highest down. -/
def bitsOf (len n : Nat) : List Bool := (List.range len).reverse.map n.testBit

/-- The coordinates are those of the neutral point. -/
def PointExtproj.IsNeutral (P : PointExtproj (Nat × Nat)) : Prop := P.x = (0, 0) ∧ P.y = P.z

instance (P : PointExtproj (Nat × Nat)) : Decidable P.IsNeutral := by
  unfold PointExtproj.IsNeutral
  infer_instance

section Map

variable {α β : Type} {o : F2Ops α} {o' : F2Ops β} {f : α → β} (h : F2Hom o o' f)

include h

theorem F2Hom.map_ladder (Q : PointExtprojPrecomp α) (bits : List Bool) (T : PointExtproj α) :
    (ladder o Q bits T).map f = ladder o' (Q.map f) bits (T.map f) := by
  induction bits generalizing T with
  | nil => rfl
  | cons b bits ih =>
    rw [ladder, ladder, ih, ← h.map_eccdouble]
    cases b with
    | false => rfl
    | true => rw [if_pos rfl, if_pos rfl, h.map_eccadd]

end Map

section Points

variable {P : PointExtproj Fp2} {Q : PointExtprojPrecomp Fp2} {A : CurvePoint} {z : Fp2}

theorem representsFp2_ladder (hQ : IsR2 Q A z) (bits : List Bool) {n : Nat}
    (hP : RepresentsFp2 P (n • A)) :
    RepresentsFp2 (ladder fp2Ops Q bits P) (ofBits bits n • A) := by
  induction bits generalizing P n with
  | nil => exact hP
  | cons b bits ih =>
    have hdouble := hP.eccdouble
    rw [← add_nsmul, ← Nat.two_mul] at hdouble
    cases b with
    | false => exact ih hdouble
    | true =>
      have hadd := hdouble.eccadd hQ
      rw [← succ_nsmul] at hadd
      exact ih hadd

theorem eq_zero_of_isNeutral {P : PointExtproj (Nat × Nat)} (h : P.IsNeutral)
    (hP : RepresentsFp2 (P.map ofPair) A) : A = 0 := by
  obtain ⟨hx, hy⟩ := h
  have hx0 : A.x * (P.map ofPair).z = 0 := by
    rw [← hP.x]
    show ofPair P.x = 0
    rw [hx]
    exact Fp2.ext Nat.cast_zero Nat.cast_zero
  have hy1 : A.y * (P.map ofPair).z = 1 * (P.map ofPair).z := by
    rw [← hP.y, one_mul]
    exact congrArg ofPair hy
  apply Edwards.Point.ext
  · exact (mul_eq_zero.mp hx0).resolve_right hP.z_ne
  · exact mul_right_cancel₀ hP.z_ne hy1

end Points

/-- A multiple of the point of an entry. -/
def multipleOf {α : Type} (o : F2Ops α) (M : PointPrecomp α) (n : Nat) : PointExtproj α :=
  ladder o (M.toR2 o) (bitsOf 246 n) (neutral o)

theorem map_multipleOf {α β : Type} {o : F2Ops α} {o' : F2Ops β} {f : α → β} (h : F2Hom o o' f)
    (M : PointPrecomp α) (n : Nat) : (multipleOf o M n).map f = multipleOf o' (M.map f) n := by
  rw [multipleOf, h.map_ladder, h.map_toR2, h.map_neutral, ← multipleOf]

/-- A number of at most 246 bits. -/
def Fits (n : Nat) : Prop := ofBits (bitsOf 246 n) 0 = n

instance (n : Nat) : Decidable (Fits n) := inferInstanceAs (Decidable (_ = _))

theorem representsFp2_multipleOf {M : PointPrecomp Fp2} {A : CurvePoint} (hM : IsPrecompFp2 M A)
    {n : Nat} (hn : Fits n) : RepresentsFp2 (multipleOf fp2Ops M n) (n • A) := by
  have h := representsFp2_ladder (P := neutral fp2Ops) (n := 0) (isR2_toR2 hM) (bitsOf 246 n)
    (by rw [zero_nsmul]; exact representsFp2_neutral)
  rwa [hn] at h

theorem isNeutral_multipleOf : (multipleOf pairOps (entry pairOps 0 0) orderNat).IsNeutral := by
  decide +kernel

theorem fits_orderNat : Fits orderNat := by decide +kernel

/-- **The base point has the curve order.** -/
theorem orderNat_nsmul_basePoint : orderNat • basePoint 0 = 0 := by
  have hpoint := representsFp2_multipleOf (isPrecompFp2_first 0) fits_orderNat
  have hmap : (multipleOf pairOps (entry pairOps 0 0) orderNat).map ofPair
      = multipleOf fp2Ops (entry fp2Ops 0 0) orderNat := by
    rw [map_multipleOf ofPair_hom, ofPair_hom.map_entry]
  rw [← hmap] at hpoint
  exact eq_zero_of_isNeutral isNeutral_multipleOf hpoint

/-- Scalars count modulo the order. -/
theorem nsmul_basePoint_congr {m n : Nat} (h : m ≡ n [MOD orderNat]) :
    m • basePoint 0 = n • basePoint 0 := by
  have hmod : ∀ k : Nat, k • basePoint 0 = (k % orderNat) • basePoint 0 := by
    intro k
    conv_lhs => rw [← Nat.div_add_mod k orderNat]
    rw [add_nsmul, mul_nsmul, orderNat_nsmul_basePoint, nsmul_zero, zero_add]
  rw [hmod m, hmod n, h]

/-! ## The order is prime -/

section Prime

open Pocklington

theorem prime_fourth : Nat.Prime 366671478348367 := by
  have hp : Nat.Prime 1576049 := by norm_num
  have hq : Nat.Prime 257 := by norm_num
  have htest : Passes 256 366671478348367 2 1576049 232652334 ∧
      Passes 256 366671478348367 2 257 1426737269838 := by decide +kernel
  refine prime_of_dvd_sub_one (F := 1576049 * 257) (by norm_num) (fun r hr hdvd => ?_)
    (by norm_num)
  exact mul_dvd_sub_one hp hq (by norm_num) (dvd_sub_one htest.1 hp hr hdvd)
    (dvd_sub_one htest.2 hq hr hdvd)

theorem prime_third : Nat.Prime 29633655537158324207 := by
  have htest : Passes 256 29633655537158324207 2 366671478348367 80818 := by decide +kernel
  exact prime_of_dvd_sub_one (by norm_num)
    (fun r hr hdvd => dvd_sub_one htest prime_fourth hr hdvd) (by norm_num)

theorem prime_third' : Nat.Prime 349523429 := by
  have hq : Nat.Prime 29833 := by norm_num
  have htest : Passes 256 349523429 2 29833 11716 := by decide +kernel
  exact prime_of_dvd_sub_one (by norm_num) (fun r hr hdvd => dvd_sub_one htest hq hr hdvd)
    (by norm_num)

theorem prime_second : Nat.Prime 95178976488652476489556669482413803056485341 := by
  have htest : Passes 256 95178976488652476489556669482413803056485341 2
        29633655537158324207 3211854047817535115611620 ∧
      Passes 256 95178976488652476489556669482413803056485341 2
        349523429 272310719658945885683550757000652460 := by decide +kernel
  refine prime_of_dvd_sub_one (F := 29633655537158324207 * 349523429) (by norm_num)
    (fun r hr hdvd => ?_) (by norm_num)
  exact mul_dvd_sub_one prime_third prime_third' (by norm_num)
    (dvd_sub_one htest.1 prime_third hr hdvd) (dvd_sub_one htest.2 prime_third' hr hdvd)

theorem passes_orderNat : Passes 256 orderNat 2 95178976488652476489556669482413803056485341
    775875076738907365924924722462 := by
  decide +kernel

/-- **The curve order is prime**: a chain of primes, each of which divides the next one less 1. -/
theorem prime_orderNat : orderNat.Prime := by
  have hlt : orderNat < (95178976488652476489556669482413803056485341 + 1) ^ 2 := by
    decide +kernel
  exact prime_of_dvd_sub_one (by decide +kernel)
    (fun r hr hdvd => dvd_sub_one passes_orderNat prime_second hr hdvd) hlt

end Prime

theorem first_entry_ne : (entry fp2Ops 0 0).xy ≠ (entry fp2Ops 0 0).yx := by decide +kernel

theorem basePoint_ne_zero : basePoint 0 ≠ 0 := by
  intro hzero
  have hentry := isPrecompFp2_first 0
  rw [hzero] at hentry
  apply first_entry_ne
  rw [hentry.xy, hentry.yx, Edwards.Point.x_zero, zero_add, sub_zero]

/-- **Multiples of the base point are equal just when the scalars are, modulo the order.** -/
theorem nsmul_basePoint_inj {m n : Nat} :
    m • basePoint 0 = n • basePoint 0 ↔ m ≡ n [MOD orderNat] := by
  have := Fact.mk prime_orderNat
  rw [← addOrderOf_eq_prime orderNat_nsmul_basePoint basePoint_ne_zero]
  exact nsmul_eq_nsmul_iff_modEq

end ZkQuorum.Crypto
