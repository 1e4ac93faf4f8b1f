import Mathlib.Algebra.BigOperators.Fin
import Mathlib.Algebra.BigOperators.GroupWithZero.Action
import Mathlib.Algebra.BigOperators.Ring.Finset
import Mathlib.Algebra.Module.BigOperators
import Mathlib.Algebra.Module.NatInt
import Mathlib.Tactic.Ring

/-!
# Signed binary digits

Digit lists are least significant first. `value` is the number they spell, `Spaced w` says
that nonzero digits are at least `w` positions apart.

`horner` is the left-to-right evaluation in a commutative group: for each position, double and
add what the position contributes. It gives the sum of the contributions, each times its power
of two (`horner_eq_sum`), and for the digits of one number the multiple of a point
(`sum_digits_smul`).
-/

namespace SignedDigits

/-- The number that digits spell. -/
def value : List Int → Int
  | [] => 0
  | d :: ds => d + 2 * value ds

theorem value_zeros (n : Nat) (ds : List Int) :
    value (List.replicate n 0 ++ ds) = 2 ^ n * value ds := by
  induction n with
  | zero => rw [List.replicate_zero, List.nil_append, pow_zero, one_mul]
  | succ n ih =>
    rw [List.replicate_succ, List.cons_append, value, ih, pow_succ]
    ring

/-- Digits as a sum over a number of positions that holds them all. -/
theorem value_eq_sum {ds : List Int} {n : Nat} (h : ds.length ≤ n) :
    value ds = ∑ i : Fin n, ds.getD i 0 * 2 ^ i.val := by
  induction ds generalizing n with
  | nil =>
    rw [value]
    exact (Finset.sum_eq_zero fun i _ => by rw [List.getD_nil, zero_mul]).symm
  | cons d ds ih =>
    cases n with
    | zero => cases h
    | succ n =>
      rw [value, ih (Nat.le_of_succ_le_succ h), Fin.sum_univ_succ, Finset.mul_sum]
      congr 1
      · exact (mul_one d).symm
      · refine Finset.sum_congr rfl fun i _ => ?_
        rw [Fin.val_succ, List.getD_cons_succ, pow_succ]
        ring

/-! ## Spacing -/

/-- Nonzero digits are at least `w` positions apart. -/
def Spaced (w : Nat) (ds : List Int) : Prop :=
  ∀ i j, i < j → ds.getD i 0 ≠ 0 → ds.getD j 0 ≠ 0 → i + w ≤ j

section Spaced

variable {w : Nat} {ds : List Int}

theorem spaced_nil : Spaced w [] := by
  intro i j _ hi
  exact absurd List.getD_nil hi

theorem spaced_single (d : Int) : Spaced w [d] := by
  intro i j hij _ hj
  cases j with
  | zero => cases hij
  | succ j =>
    rw [List.getD_cons_succ] at hj
    exact absurd List.getD_nil hj

/-- A zero below the digits. -/
theorem spaced_zero_cons (h : Spaced w ds) : Spaced w (0 :: ds) := by
  intro i j hij hi hj
  cases i with
  | zero => exact absurd rfl hi
  | succ i =>
    cases j with
    | zero => cases hij
    | succ j =>
      have hle := h i j (Nat.lt_of_succ_lt_succ hij) hi hj
      omega

theorem getD_zeros (n : Nat) (ds : List Int) (i : Nat) :
    (List.replicate n 0 ++ ds).getD i 0 = if i < n then 0 else ds.getD (i - n) 0 := by
  induction n generalizing i with
  | zero => rfl
  | succ n ih =>
    cases i with
    | zero => rfl
    | succ i =>
      rw [List.replicate_succ, List.cons_append, List.getD_cons_succ, ih]
      simp only [Nat.succ_lt_succ_iff, Nat.succ_sub_succ]

/-- A digit below `w - 1` zeros. -/
theorem spaced_cons_zeros (d : Int) (h : Spaced w ds) :
    Spaced w (d :: (List.replicate (w - 1) 0 ++ ds)) := by
  intro i j hij hi hj
  cases j with
  | zero => cases hij
  | succ j =>
    rw [List.getD_cons_succ, getD_zeros] at hj
    by_cases hjw : j < w - 1
    · exact absurd (if_pos hjw) hj
    rw [if_neg hjw] at hj
    cases i with
    | zero => omega
    | succ i =>
      rw [List.getD_cons_succ, getD_zeros] at hi
      by_cases hiw : i < w - 1
      · exact absurd (if_pos hiw) hi
      rw [if_neg hiw] at hi
      have hle := h (i - (w - 1)) (j - (w - 1)) (by omega) hi hj
      omega

end Spaced

/-! ## Evaluation from the top -/

section Horner

variable {G : Type} [AddCommGroup G]

/-- Double and add, from position `n - 1` down to 0. -/
def horner (add : Nat → G) : Nat → G → G
  | 0, T => T
  | i + 1, T => horner add i (T + T + add i)

theorem horner_eq_sum (add : Nat → G) (n : Nat) (T : G) :
    horner add n T = 2 ^ n • T + ∑ i : Fin n, 2 ^ i.val • add i := by
  induction n generalizing T with
  | zero => rw [horner, pow_zero, one_smul, Fin.sum_univ_zero, add_zero]
  | succ n ih =>
    rw [horner, ih, Fin.sum_univ_castSucc, smul_add, ← two_nsmul, smul_smul, ← pow_succ]
    simp only [Fin.val_castSucc, Fin.val_last]
    rw [add_assoc, add_comm (2 ^ n • add n)]

/-- The contributions of one number are a multiple of its point. -/
theorem sum_digits_smul {ds : List Int} {n : Nat} (h : ds.length ≤ n) (P : G) :
    ∑ i : Fin n, 2 ^ i.val • (ds.getD i 0 • P) = value ds • P := by
  rw [value_eq_sum h, Finset.sum_smul]
  refine Finset.sum_congr rfl fun i _ => ?_
  rw [mul_comm, mul_smul, ← Nat.cast_smul_eq_nsmul Int]
  push_cast
  rfl

end Horner

end SignedDigits
