import ZkQuorum.Lib.SignedDigits
import Mathlib.Algebra.BigOperators.Intervals
import Mathlib.Data.Nat.Bitwise
import Mathlib.Tactic.LinearCombination

/-!
# Signed combs

An odd number written in rows of `d` digits. The lowest row holds signs, the last of them +1.
The rows above hold bits, and each bit counts with the sign of its column. A column is then its
sign times one of 2^w odd numbers, which a table can hold for a fixed point.

- `sum_columns`: the columns, each times its power of two, sum up to the number;
- `sum_blocks`: the same by blocks of `e` columns, as a table of one entry for each block adds
  them;
- `horner_blocks`: the evaluation of a multiple of a point from the top column down.
-/

namespace SignedComb

/-- The factor of a column. -/
def sign (negative : Bool) : Int := if negative then -1 else 1

/-- What is left of a number whose low bit is taken with a sign. -/
def next (negative : Bool) (c : Nat) : Nat := c / 2 + if negative then c % 2 else 0

/-- Column `j` counts negatively: the bit above it is clear. The last column never does. -/
def negative (d k j : Nat) : Bool := decide (j + 1 < d) && !k.testBit (j + 1)

/-- What is left of `k` after the row of signs and `i` bits. -/
def rest (d k : Nat) : Nat → Nat
  | 0 => k / 2 ^ d
  | i + 1 => next (negative d k (i % d)) (rest d k i)

/-- The bit of row `t` in column `j`. -/
def bit (d k t j : Nat) : Nat := rest d k (d * t + j) % 2

/-- What column `j` is without its sign. -/
def tooth (d w k j : Nat) : Nat := 1 + ∑ t ∈ Finset.range w, bit d k t j * 2 ^ (d * (t + 1))

/-- What column `j` counts. -/
def column (d w k j : Nat) : Int := sign (negative d k j) * tooth d w k j

/-! ## The recoding is exact -/

theorem next_eq (negative : Bool) (c : Nat) :
    (c : Int) = sign negative * (c % 2 : Nat) + 2 * next negative c := by
  cases negative with
  | false =>
    simp only [sign, next, Bool.false_eq_true, if_false]
    omega
  | true =>
    simp only [sign, next, if_true]
    omega

/-- Digits that are taken one by one. -/
theorem expansion {r digit : Nat → Int} {n : Nat} (h : ∀ i < n, r i = digit i + 2 * r (i + 1)) :
    r 0 = ∑ i ∈ Finset.range n, digit i * 2 ^ i + 2 ^ n * r n := by
  induction n with
  | zero => rw [Finset.sum_range_zero, pow_zero, zero_add, one_mul]
  | succ n ih =>
    have hlast := h n (Nat.lt_succ_self n)
    rw [ih fun i hi => h i (Nat.lt_succ_of_lt hi), Finset.sum_range_succ, pow_succ]
    linear_combination 2 ^ n * hlast

section Rows

variable {d k : Nat}

theorem negative_last (d k : Nat) : negative d k (d - 1) = false := by
  rw [negative, decide_eq_false (by omega), Bool.false_and]

/-- A sign is taken from the odd number 2c + 1. -/
theorem sign_eq {j : Nat} (hj : j + 1 < d) : ((2 * (k / 2 ^ (j + 1)) + 1 : Nat) : Int)
    = sign (negative d k j) + 2 * ((2 * (k / 2 ^ (j + 2)) + 1 : Nat) : Int) := by
  have hdiv : k / 2 ^ (j + 2) = k / 2 ^ (j + 1) / 2 := by
    rw [Nat.div_div_eq_div_mul, ← pow_succ]
  rw [negative, decide_eq_true hj, Bool.true_and, Nat.testBit_eq_decide_div_mod_eq, hdiv]
  rcases Nat.mod_two_eq_zero_or_one (k / 2 ^ (j + 1)) with hbit | hbit
  · rw [hbit]
    simp only [sign, zero_ne_one, decide_false, Bool.not_false, if_true]
    omega
  · rw [hbit]
    simp only [sign, decide_true, Bool.not_true, Bool.false_eq_true, if_false]
    omega

/-- The row of signs, and what is left above it. -/
theorem sum_signs (hd : 0 < d) (hodd : k % 2 = 1) : (k : Int)
    = ∑ j ∈ Finset.range d, sign (negative d k j) * 2 ^ j + 2 ^ d * (rest d k 0 : Int) := by
  obtain ⟨m, rfl⟩ : ∃ m, d = m + 1 := ⟨d - 1, by omega⟩
  have hsum := expansion (r := fun j => ((2 * (k / 2 ^ (j + 1)) + 1 : Nat) : Int)) (n := m)
    fun j hj => sign_eq (d := m + 1) (Nat.succ_lt_succ hj)
  have hlast : sign (negative (m + 1) k m) = 1 := congrArg sign (negative_last (m + 1) k)
  have hrest : k / 2 ^ (m + 1) = rest (m + 1) k 0 := rfl
  have hfirst : 2 * (k / 2 ^ (0 + 1)) + 1 = k := by
    rw [zero_add, pow_one]
    omega
  simp only [hfirst, hrest] at hsum
  refine hsum.trans ?_
  rw [Finset.sum_range_succ, hlast, pow_succ]
  push_cast
  ring

/-- The rows of bits, and what is left above them. -/
theorem sum_bits (d k n : Nat) : (rest d k 0 : Int)
    = ∑ i ∈ Finset.range n, sign (negative d k (i % d)) * (rest d k i % 2 : Nat) * 2 ^ i
      + 2 ^ n * (rest d k n : Int) :=
  expansion (r := fun i => (rest d k i : Int)) fun i _ =>
    next_eq (negative d k (i % d)) (rest d k i)

theorem rest_le {b : Nat} (hk : k / 2 ^ d ≤ 2 ^ b) (i : Nat) : rest d k i ≤ 2 ^ (b - i) := by
  induction i with
  | zero => exact hk
  | succ i ih =>
    have hnext : rest d k (i + 1) ≤ (rest d k i + 1) / 2 := by
      rw [rest, next]
      split
      · omega
      · omega
    refine hnext.trans ?_
    by_cases hi : i < b
    · have hpow : 2 ^ (b - i) = 2 * 2 ^ (b - (i + 1)) := by
        rw [← pow_succ', show b - (i + 1) + 1 = b - i by omega]
      omega
    · rw [Nat.sub_eq_zero_of_le (Nat.le_of_not_lt hi), pow_zero] at ih
      rw [Nat.sub_eq_zero_of_le (by omega), pow_zero]
      omega

/-- Nothing is left above rows that are long enough: the last sign is positive. -/
theorem rest_eq_zero {b w : Nat} (hk : k / 2 ^ d ≤ 2 ^ b) (hb : b < d * w) :
    rest d k (d * w) = 0 := by
  obtain ⟨v, rfl⟩ : ∃ v, w = v + 1 := ⟨w - 1, by cases w <;> simp_all⟩
  have hd : 0 < d := Nat.pos_of_ne_zero fun h => by simp [h] at hb
  obtain ⟨n, hn⟩ : ∃ n, d * (v + 1) = n + 1 := ⟨d * (v + 1) - 1, by omega⟩
  have hmod : n % d = d - 1 := by
    rw [show n = d - 1 + d * v by rw [Nat.mul_succ] at hn; omega, Nat.add_mul_mod_self_left,
      Nat.mod_eq_of_lt (Nat.sub_lt hd one_pos)]
  have hle := rest_le hk n
  rw [Nat.sub_eq_zero_of_le (by omega), pow_zero] at hle
  rw [hn, rest, hmod, negative_last, next]
  simp only [Bool.false_eq_true, if_false]
  omega

end Rows

/-! ## Columns -/

/-- A sum by blocks of `e`. -/
theorem sum_range_blocks {M : Type} [AddCommMonoid M] (f : Nat → M) (e v : Nat) :
    ∑ i ∈ Finset.range (e * v), f i
      = ∑ a ∈ Finset.range v, ∑ c ∈ Finset.range e, f (e * a + c) := by
  induction v with
  | zero => rfl
  | succ v ih => rw [Nat.mul_succ, Finset.sum_range_add, ih, Finset.sum_range_succ]

/-- **The columns sum up to the number**, when the rows of bits are long enough. -/
theorem sum_columns {d k w b : Nat} (hodd : k % 2 = 1) (hk : k / 2 ^ d ≤ 2 ^ b)
    (hb : b < d * w) : (k : Int) = ∑ j ∈ Finset.range d, 2 ^ j * column d w k j := by
  have hd : 0 < d := Nat.pos_of_ne_zero fun h => by simp [h] at hb
  have hbits := sum_bits d k (d * w)
  rw [rest_eq_zero hk hb, Nat.cast_zero, mul_zero, add_zero, sum_range_blocks,
    Finset.sum_comm] at hbits
  rw [sum_signs hd hodd, hbits, Finset.mul_sum, ← Finset.sum_add_distrib]
  refine Finset.sum_congr rfl fun j hj => ?_
  have hmod : ∀ t, (d * t + j) % d = j := by
    intro t
    rw [Nat.mul_add_mod, Nat.mod_eq_of_lt (Finset.mem_range.mp hj)]
  simp only [hmod, column, tooth, bit]
  push_cast
  rw [mul_add, mul_add, mul_one, Finset.mul_sum, Finset.mul_sum, Finset.mul_sum, mul_comm]
  congr 1
  refine Finset.sum_congr rfl fun t _ => ?_
  rw [Nat.mul_succ, pow_add, pow_add]
  ring

/-- The columns by blocks of `e`. -/
theorem sum_blocks {e v k w b : Nat} (hodd : k % 2 = 1) (hk : k / 2 ^ (e * v) ≤ 2 ^ b)
    (hb : b < e * v * w) : (k : Int) = ∑ c ∈ Finset.range e, 2 ^ c
      * ∑ a ∈ Finset.range v, 2 ^ (e * a) * column (e * v) w k (e * a + c) := by
  rw [sum_columns hodd hk hb, sum_range_blocks, Finset.sum_comm]
  refine Finset.sum_congr rfl fun c _ => ?_
  rw [Finset.mul_sum]
  refine Finset.sum_congr rfl fun a _ => ?_
  rw [pow_add]
  ring

/-- **Evaluation from the top column down**: double, then add what the blocks hold for it. -/
theorem horner_blocks {G : Type} [AddCommGroup G] {e v k w b : Nat} {add : Nat → G} {P : G}
    (hodd : k % 2 = 1) (hk : k / 2 ^ ((e + 1) * v) ≤ 2 ^ b) (hb : b < (e + 1) * v * w)
    (hadd : ∀ c ≤ e, add c = ∑ a ∈ Finset.range v,
      (2 ^ ((e + 1) * a) * column ((e + 1) * v) w k ((e + 1) * a + c)) • P) :
    SignedDigits.horner add e (add e) = k • P := by
  have hsum : SignedDigits.horner add e (add e) = ∑ c ∈ Finset.range (e + 1), 2 ^ c • add c := by
    rw [SignedDigits.horner_eq_sum, Finset.sum_range_succ, add_comm,
      Fin.sum_univ_eq_sum_range fun c => 2 ^ c • add c]
  rw [hsum, ← natCast_zsmul, sum_blocks hodd hk hb, Finset.sum_smul]
  refine Finset.sum_congr rfl fun c hc => ?_
  rw [hadd c (Nat.le_of_lt_succ (Finset.mem_range.mp hc)), ← Finset.sum_smul, mul_smul,
    ← natCast_zsmul]
  push_cast
  rfl

end SignedComb
