import ZkQuorum.Crypto.Truncate
import ZkQuorum.Crypto.Verify
import Mathlib.Data.Int.ModEq
import Mathlib.Data.ZMod.Basic

/-!
# The decomposition of a scalar (crypto/src/riscv_fourq_verify.c)

`decompose` computes modulo 2^64. Over the integers its four sub-scalars are those of
`subScalar`: a point of the lattice with basis `B11 ... B44`, taken near to the scalar and moved
by an offset. They stay within a word for every scalar (`subScalar_bounds`), so the words are
exact, and they recombine to the scalar modulo the curve order (**`decompose_exact`**).
-/

namespace ZkQuorum.Crypto

/-! ## Integers modulo 2^64 -/

/-- The word is the integer modulo 2^64. -/
def Wraps (w : UInt64) (z : Int) : Prop := (w.toNat : Int) ≡ z [ZMOD 2 ^ 64]

namespace Wraps

variable {v w : UInt64} {x y : Int}

theorem self (w : UInt64) : Wraps w w.toNat := Int.ModEq.refl _

theorem signed (w : UInt64) : Wraps w w.toBitVec.toInt := by
  have h : w.toBitVec.toInt
      = if 2 * w.toNat < 2 ^ 64 then (w.toNat : Int) else w.toNat - 2 ^ 64 := by
    rw [BitVec.toInt]
    rfl
  rw [Wraps, Int.ModEq, h]
  split
  · rfl
  · rw [Int.sub_emod_right]

theorem add (hv : Wraps v x) (hw : Wraps w y) : Wraps (v + w) (x + y) := by
  rw [Wraps, UInt64.toNat_add]
  push_cast
  exact (Int.mod_modEq _ _).trans (Int.ModEq.add hv hw)

theorem mul (hv : Wraps v x) (hw : Wraps w y) : Wraps (v * w) (x * y) := by
  rw [Wraps, UInt64.toNat_mul]
  push_cast
  exact (Int.mod_modEq _ _).trans (Int.ModEq.mul hv hw)

theorem sub (hv : Wraps v x) (hw : Wraps w y) : Wraps (v - w) (x - y) := by
  have hle := Nat.le_of_lt w.toNat_lt
  rw [Wraps, UInt64.toNat_sub]
  push_cast [hle]
  refine (Int.mod_modEq _ _).trans ?_
  rw [sub_add_comm]
  exact Int.add_modEq_right.trans (Int.ModEq.sub hv hw)

/-- An integer within a word does not wrap. -/
theorem eq_of_bounds (hw : Wraps w x) (h0 : 0 ≤ x) (hlt : x < 2 ^ 64) : (w.toNat : Int) = x := by
  have hword := w.toNat_lt
  rwa [Wraps, Int.ModEq, Int.emod_eq_of_lt (by omega) (by omega), Int.emod_eq_of_lt h0 hlt] at hw

theorem mod_two (hw : Wraps w x) : (w.toNat % 2 : Int) = x % 2 :=
  Int.ModEq.of_dvd (by decide) hw

end Wraps

/-! ## The sub-scalars over the integers -/

/-- `B11` to `B44`. -/
def B : Vector Words4 4 := #v[B1, B2, B3, B4]

/-- A basis vector of the lattice: the words are in two's complement. -/
def latticeRow (i j : Fin 4) : Int := ((B.get i).get j).toBitVec.toInt

/-- The number whose low word is `a1` to `a4`. -/
def quotient (k : Words4) (i : Fin 4) : Nat := Words.value k * Words.value (ell.get i) / 2 ^ 256

/-- `scalars[j]` before the parity fix. -/
def firstScalar (k : Words4) (j : Fin 4) : Int :=
  ∑ i : Fin 4, quotient k i * latticeRow i j + (C.get j).toNat + if j = 0 then Words.value k else 0

/-- `scalars[j]`. -/
def subScalar (k : Words4) (j : Fin 4) : Int :=
  if firstScalar k 0 % 2 = 0 then firstScalar k j - latticeRow 3 j else firstScalar k j

/-! ## The bounds -/

/-- What the sum of the cut-off parts can be at most. -/
def cutMax (j : Fin 4) : Int := ∑ i : Fin 4, max (latticeRow i j) 0

/-- What the sum of the cut-off parts can be at least. -/
def cutMin (j : Fin 4) : Int := ∑ i : Fin 4, min (latticeRow i j) 0

/-- The coefficient of the scalar when nothing is cut off, times 2^256. -/
def slope (j : Fin 4) : Int :=
  ∑ i : Fin 4, Words.value (ell.get i) * latticeRow i j + if j = 0 then 2 ^ 256 else 0

/-- The part that `quotient` cuts off. -/
def cut (k : Words4) (i : Fin 4) : Int := (Words.value k * Words.value (ell.get i) % 2 ^ 256 : Nat)

theorem quotient_eq (k : Words4) (i : Fin 4) :
    2 ^ 256 * (quotient k i : Int) = Words.value k * Words.value (ell.get i) - cut k i := by
  rw [quotient, cut, ← Nat.cast_mul]
  generalize Words.value k * Words.value (ell.get i) = m
  omega

/-- A multiple by a number between 0 and `n`. -/
theorem mul_between {c n : Int} (h0 : 0 ≤ c) (hn : c ≤ n) (b : Int) :
    n * min b 0 ≤ c * b ∧ c * b ≤ n * max b 0 := by
  rcases le_total b 0 with hb | hb
  · rw [min_eq_left hb, max_eq_right hb, mul_zero]
    exact ⟨mul_le_mul_of_nonpos_right hn hb, mul_nonpos_of_nonneg_of_nonpos h0 hb⟩
  · rw [min_eq_right hb, max_eq_left hb, mul_zero]
    exact ⟨mul_nonneg h0 hb, mul_le_mul_of_nonneg_right hn hb⟩

theorem cut_nonneg (k : Words4) (i : Fin 4) : 0 ≤ cut k i := Int.natCast_nonneg _

theorem cut_le (k : Words4) (i : Fin 4) : cut k i ≤ 2 ^ 256 := by
  rw [cut]
  exact_mod_cast Nat.le_of_lt (Nat.mod_lt _ (Nat.two_pow_pos 256))

/-- A sub-scalar in terms of what was cut off. -/
theorem firstScalar_eq (k : Words4) (j : Fin 4) : 2 ^ 256 * firstScalar k j
    = Words.value k * slope j - ∑ i, cut k i * latticeRow i j + 2 ^ 256 * (C.get j).toNat := by
  have hterm : ∀ i : Fin 4, 2 ^ 256 * (quotient k i * latticeRow i j)
      = Words.value k * (Words.value (ell.get i) * latticeRow i j) - cut k i * latticeRow i j := by
    intro i
    linear_combination latticeRow i j * quotient_eq k i
  rw [firstScalar, slope, mul_add, mul_add, mul_add, Finset.mul_sum, Finset.mul_sum,
    Finset.sum_congr rfl fun i _ => hterm i, Finset.sum_sub_distrib]
  split
  · ring
  · ring

/-- The interval in which a sub-scalar lies before the parity fix. -/
theorem firstScalar_bounds (k : Words4) (j : Fin 4) :
    (C.get j).toNat - cutMax j + min (slope j) 0 ≤ firstScalar k j ∧
      firstScalar k j ≤ (C.get j).toNat - cutMin j + max (slope j) 0 := by
  have heq := firstScalar_eq k j
  have hupper : ∑ i, cut k i * latticeRow i j ≤ 2 ^ 256 * cutMax j := by
    rw [cutMax, Finset.mul_sum]
    exact Finset.sum_le_sum fun i _ => (mul_between (cut_nonneg k i) (cut_le k i) _).2
  have hlower : 2 ^ 256 * cutMin j ≤ ∑ i, cut k i * latticeRow i j := by
    rw [cutMin, Finset.mul_sum]
    exact Finset.sum_le_sum fun i _ => (mul_between (cut_nonneg k i) (cut_le k i) _).1
  have hk : (Words.value k : Int) ≤ 2 ^ 256 := by
    exact_mod_cast Nat.le_of_lt (Words.value_four_lt k)
  obtain ⟨hslope0, hslope1⟩ := mul_between (Int.natCast_nonneg _) hk (slope j)
  constructor
  · omega
  · omega

/-- The intervals lie within a word, with the parity fix or without. -/
theorem bounds_fit : ∀ j : Fin 4,
    0 ≤ (C.get j).toNat - cutMax j + min (slope j) 0 - max (latticeRow 3 j) 0 ∧
      (C.get j).toNat - cutMin j + max (slope j) 0 - min (latticeRow 3 j) 0 < 2 ^ 64 := by
  decide

/-- **Every sub-scalar fits in a word.** -/
theorem subScalar_bounds (k : Words4) (j : Fin 4) : 0 ≤ subScalar k j ∧ subScalar k j < 2 ^ 64 := by
  obtain ⟨hlow, hhigh⟩ := firstScalar_bounds k j
  obtain ⟨hroom0, hroom1⟩ := bounds_fit j
  have hmax := le_max_left (latticeRow 3 j) 0
  have hmax' := le_max_right (latticeRow 3 j) 0
  have hmin := min_le_left (latticeRow 3 j) 0
  have hmin' := min_le_right (latticeRow 3 j) 0
  rw [subScalar]
  split
  · omega
  · omega

/-! ## The words -/

/-- `a1` to `a4` are the low words of the quotients. -/
theorem wraps_mulTruncate (k : Words4) (i : Fin 4) :
    Wraps (mulTruncate k (ell.get i)) (quotient k i) := by
  rw [Wraps, toNat_mulTruncate, quotient]
  push_cast
  exact Int.mod_modEq _ _

/-- The words before the parity fix. -/
def firstWord (k : Words4) (j : Fin 4) : UInt64 :=
  mulTruncate k ell1 * B1.get j + mulTruncate k ell2 * B2.get j + mulTruncate k ell3 * B3.get j
    + mulTruncate k ell4 * B4.get j + C.get j

theorem wraps_firstWord (k : Words4) (j : Fin 4) :
    Wraps (firstWord k j) (∑ i : Fin 4, quotient k i * latticeRow i j + (C.get j).toNat) := by
  have hrow : ∀ i : Fin 4, Wraps (mulTruncate k (ell.get i) * (B.get i).get j)
      (quotient k i * latticeRow i j) :=
    fun i => (wraps_mulTruncate k i).mul (Wraps.signed _)
  rw [Fin.sum_univ_four]
  exact ((((hrow 0).add (hrow 1)).add (hrow 2)).add (hrow 3)).add (Wraps.self (C.get j))

/-- The low word of the scalar. -/
theorem wraps_low (k : Words4) : Wraps (k.get 0) (Words.value k) := by
  have hlow : k[0]! = k.get 0 := getElem!_pos k 0 (by decide)
  rw [Wraps, Words.value_four, hlow, Int.ModEq]
  omega

theorem decompose_eq (k : Words4) : decompose k
    = if firstWord k 0 + k.get 0 &&& 1 = 0 then
        #v[firstWord k 0 + k.get 0 - B4.get 0, firstWord k 1 - B4.get 1, firstWord k 2 - B4.get 2,
          firstWord k 3 - B4.get 3]
      else #v[firstWord k 0 + k.get 0, firstWord k 1, firstWord k 2, firstWord k 3] := by
  rw [decompose]
  rfl

theorem wraps_decompose (k : Words4) (j : Fin 4) : Wraps ((decompose k).get j) (subScalar k j) := by
  have hfirst : Wraps (firstWord k 0 + k.get 0) (firstScalar k 0) :=
    (wraps_firstWord k 0).add (wraps_low k)
  have hother : ∀ j : Fin 4, j ≠ 0 → Wraps (firstWord k j) (firstScalar k j) := by
    intro j hj
    rw [firstScalar, if_neg hj, Nat.cast_zero, add_zero]
    exact wraps_firstWord k j
  have hparity : firstWord k 0 + k.get 0 &&& 1 = 0 ↔ firstScalar k 0 % 2 = 0 := by
    rw [and_one_eq_zero_iff, ← hfirst.mod_two]
    norm_cast
  rw [decompose_eq, subScalar]
  simp only [hparity]
  split
  · match j with
    | 0 => exact hfirst.sub (Wraps.signed _)
    | 1 => exact (hother 1 (by decide)).sub (Wraps.signed _)
    | 2 => exact (hother 2 (by decide)).sub (Wraps.signed _)
    | 3 => exact (hother 3 (by decide)).sub (Wraps.signed _)
  · match j with
    | 0 => exact hfirst
    | 1 => exact hother 1 (by decide)
    | 2 => exact hother 2 (by decide)
    | 3 => exact hother 3 (by decide)

/-- **No sub-scalar wraps.** -/
theorem toNat_decompose (k : Words4) (j : Fin 4) :
    (((decompose k).get j).toNat : Int) = subScalar k j :=
  (wraps_decompose k j).eq_of_bounds (subScalar_bounds k j).1 (subScalar_bounds k j).2

theorem odd_subScalar (k : Words4) : subScalar k 0 % 2 = 1 := by
  have hrow : latticeRow 3 0 % 2 = 1 := by decide
  rw [subScalar]
  split
  · omega
  · omega

/-! ## The lattice -/

/-- The residues of the second and the third sub-scalar. -/
def residue : Vector Int 2 := #v[
  0x6d9069dc876c883c18f03c13d737624874f0b5e4daa9bcdf0e63ce8997864,
  0x18c475353519268c4c2510ab53b51ecb3688ca09ef0e885dc7f2b7cdfd2a88]

/-- What four sub-scalars stand for. -/
def recombine (x : Fin 4 → Int) : Int :=
  x 0 + residue.get 0 * x 1 + residue.get 1 * x 2 + residue.get 0 * residue.get 1 * x 3

/-- The basis vectors and the offset stand for multiples of the curve order. -/
theorem recombine_dvd : (∀ i, (Words.value curveOrder : Int) ∣ recombine (latticeRow i)) ∧
    (Words.value curveOrder : Int) ∣ recombine fun j => (C.get j).toNat := by
  decide

/-- **The sub-scalars recombine to the scalar.** -/
theorem recombine_subScalar (k : Words4) :
    recombine (subScalar k) ≡ Words.value k [ZMOD Words.value curveOrder] := by
  obtain ⟨hrow, hoffset⟩ := recombine_dvd
  have hfirst : recombine (firstScalar k) - Words.value k
      = ∑ i, quotient k i * recombine (latticeRow i) + recombine fun j => (C.get j).toNat := by
    simp only [recombine, firstScalar, Fin.sum_univ_four]
    simp only [show ¬ (1 : Fin 4) = 0 by decide, show ¬ (2 : Fin 4) = 0 by decide,
      show ¬ (3 : Fin 4) = 0 by decide, if_true, if_false, Nat.cast_zero]
    ring
  have hdvd : (Words.value curveOrder : Int) ∣ recombine (firstScalar k) - Words.value k := by
    rw [hfirst]
    exact dvd_add (Finset.dvd_sum fun i _ => Dvd.dvd.mul_left (hrow i) _) hoffset
  refine (Int.modEq_iff_dvd.mpr ?_).symm
  by_cases heven : firstScalar k 0 % 2 = 0
  · have hfix : recombine (subScalar k) = recombine (firstScalar k) - recombine (latticeRow 3) := by
      simp only [recombine, subScalar, if_pos heven]
      ring
    rw [hfix, sub_right_comm]
    exact dvd_sub hdvd (hrow 3)
  · have hfix : subScalar k = firstScalar k := by
      funext j
      rw [subScalar, if_neg heven]
    rwa [hfix]

/-- **The decomposition is exact**: it recombines to the scalar, the first sub-scalar is odd,
and no sub-scalar wraps. -/
theorem decompose_exact : ∃ l1 l2 : ZMod (Words.value curveOrder), ∀ k : Words4,
    ((decompose k).get 0).toNat + l1 * ((decompose k).get 1).toNat
        + l2 * ((decompose k).get 2).toNat + l1 * l2 * ((decompose k).get 3).toNat
        = (Words.value k : ZMod (Words.value curveOrder)) ∧
      ((decompose k).get 0).toNat % 2 = 1 ∧
      ∀ j : Fin 4, 0 ≤ subScalar k j ∧ subScalar k j < 2 ^ 64 ∧
        (((decompose k).get j).toNat : Int) = subScalar k j := by
  refine ⟨(residue.get 0 : Int), (residue.get 1 : Int), fun k => ⟨?_, ?_, fun j => ?_⟩⟩
  · have hcast := (ZMod.intCast_eq_intCast_iff _ _ _).mpr (recombine_subScalar k)
    have hword : ∀ j : Fin 4, (((decompose k).get j).toNat : ZMod (Words.value curveOrder))
        = (subScalar k j : Int) := by
      intro j
      rw [← toNat_decompose, Int.cast_natCast]
    rw [recombine] at hcast
    push_cast at hcast
    rw [← hword 0, ← hword 1, ← hword 2, ← hword 3] at hcast
    exact hcast
  · have hodd := odd_subScalar k
    rw [← toNat_decompose] at hodd
    exact_mod_cast hodd
  · exact ⟨(subScalar_bounds k j).1, (subScalar_bounds k j).2, toNat_decompose k j⟩

end ZkQuorum.Crypto
