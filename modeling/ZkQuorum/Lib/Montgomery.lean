import Mathlib.Data.Nat.ModEq
import Mathlib.Tactic.Ring

/-!
# Montgomery reduction

Reduction modulo `r` without a division, with a radix `R` and a constant `r'` such that
R divides r r' + 1. The quotient `Q` is the multiple of `r` that makes `T` divisible by R.

- `reduce_mul_modEq`, `reduce_lt`: the reduction divides by R modulo `r`, and is below `r` for
  every T below r R;
- `eq_reduce_iff`: these two determine it;
- `reduce_reduce`, `reduce_product`: into Montgomery form and back, of a number and of a product.
-/

namespace Montgomery

/-- `r'` is the negated inverse of `r` modulo the radix. -/
def IsNegInverse (r R r' : Nat) : Prop := R ∣ r * r' + 1

/-- The multiple of `r` that is added. -/
def quotient (R r' T : Nat) : Nat := T * r' % R

/-- The sum that R divides. -/
def completed (r R r' T : Nat) : Nat := T + quotient R r' T * r

/-- The reduction, with its final subtraction. -/
def reduce (r R r' T : Nat) : Nat :=
  let t := completed r R r' T / R
  if t < r then t else t - r

section Reduction

variable {r R r' T x : Nat}

theorem dvd_completed (h : IsNegInverse r R r') (T : Nat) : R ∣ completed r R r' T := by
  have hquotient : quotient R r' T ≡ T * r' [MOD R] := Nat.mod_modEq _ _
  have hmodEq : completed r R r' T ≡ T + T * r' * r [MOD R] :=
    Nat.ModEq.add_left T (hquotient.mul_right r)
  have hfactor : T + T * r' * r = T * (r * r' + 1) := by ring
  rw [hfactor] at hmodEq
  exact (Nat.modEq_zero_iff_dvd.mp (hmodEq.trans (Nat.modEq_zero_iff_dvd.mpr (h.mul_left T))))

theorem completed_modEq (r R r' T : Nat) : completed r R r' T ≡ T [MOD r] :=
  Nat.add_mul_mod_self_right T _ r

/-- The sum is below 2 r R. -/
theorem completed_lt (hR : 0 < R) (hr : 0 < r) (hT : T < r * R) :
    completed r R r' T < 2 * r * R := by
  have hquotient : quotient R r' T < R := Nat.mod_lt _ hR
  have hmul : quotient R r' T * r ≤ (R - 1) * r :=
    Nat.mul_le_mul_right r (Nat.le_sub_one_of_lt hquotient)
  have hlast : (R - 1) * r + r = r * R := by
    rw [← Nat.succ_mul, Nat.succ_eq_add_one, Nat.sub_add_cancel hR, Nat.mul_comm]
  rw [completed, Nat.mul_assoc]
  omega

theorem reduce_mul_modEq (h : IsNegInverse r R r') (T : Nat) : reduce r R r' T * R ≡ T [MOD r] := by
  have hdiv : completed r R r' T / R * R = completed r R r' T :=
    Nat.div_mul_cancel (dvd_completed h T)
  rw [reduce]
  split
  · rw [hdiv]
    exact completed_modEq r R r' T
  · rename_i hge
    have hsub : (completed r R r' T / R - r) * R + r * R = completed r R r' T := by
      rw [← Nat.add_mul, Nat.sub_add_cancel (Nat.not_lt.mp hge), hdiv]
    have hzero : r * R ≡ 0 [MOD r] := Nat.modEq_zero_iff_dvd.mpr (Nat.dvd_mul_right r R)
    have hsum := (Nat.ModEq.add_left ((completed r R r' T / R - r) * R) hzero).symm
    rw [hsub] at hsum
    exact hsum.trans (completed_modEq r R r' T)

theorem reduce_lt (hR : 0 < R) (hr : 0 < r) (hT : T < r * R) : reduce r R r' T < r := by
  have hlt : completed r R r' T / R < 2 * r := by
    rw [Nat.div_lt_iff_lt_mul hR]
    exact completed_lt hR hr hT
  rw [reduce]
  split
  · assumption
  · omega

theorem coprime_of_isNegInverse (h : IsNegInverse r R r') : Nat.Coprime r R := by
  rw [Nat.coprime_iff_gcd_eq_one, ← Nat.dvd_one]
  have hproduct : Nat.gcd r R ∣ r * r' := (Nat.gcd_dvd_left r R).mul_right r'
  exact (Nat.dvd_add_right hproduct).mp ((Nat.gcd_dvd_right r R).trans h)

/-- **The reduction is the only number below `r` with its residue.** -/
theorem eq_reduce_iff (h : IsNegInverse r R r') (hR : 0 < R) (hr : 0 < r) (hT : T < r * R) :
    x = reduce r R r' T ↔ x < r ∧ x * R ≡ T [MOD r] := by
  constructor
  · rintro rfl
    exact ⟨reduce_lt hR hr hT, reduce_mul_modEq h T⟩
  · rintro ⟨hx, hmodEq⟩
    have hcancel : x ≡ reduce r R r' T [MOD r] :=
      Nat.ModEq.cancel_right_of_coprime (coprime_of_isNegInverse h)
        (hmodEq.trans (reduce_mul_modEq h T).symm)
    rwa [Nat.ModEq, Nat.mod_eq_of_lt hx, Nat.mod_eq_of_lt (reduce_lt hR hr hT)] at hcancel

end Reduction

/-! ## Montgomery form -/

section Form

variable {r R r' R2 : Nat}

/-- Into Montgomery form: a factor R. -/
theorem reduce_mul_square (h : IsNegInverse r R r') (hR2 : R2 ≡ R * R [MOD r]) (k : Nat) :
    reduce r R r' (k * R2) ≡ k * R [MOD r] := by
  apply Nat.ModEq.cancel_right_of_coprime (coprime_of_isNegInverse h)
  have hform := (reduce_mul_modEq h (k * R2)).trans (hR2.mul_left k)
  rwa [← Nat.mul_assoc] at hform

/-- **Into Montgomery form and back**: the remainder, whatever the size of the number. -/
theorem reduce_reduce (h : IsNegInverse r R r') (hR2 : R2 ≡ R * R [MOD r]) (hR : 0 < R)
    (hr : 0 < r) {k : Nat} (hk : k * R2 < r * R) :
    reduce r R r' (reduce r R r' (k * R2) * 1) = k % r := by
  have hform := reduce_mul_square h hR2 k
  have hlt : reduce r R r' (k * R2) * 1 < r * R := by
    rw [Nat.mul_one]
    exact Nat.lt_of_lt_of_le (reduce_lt hR hr hk) (Nat.le_mul_of_pos_right r hR)
  symm
  rw [eq_reduce_iff h hR hr hlt, Nat.mul_one]
  exact ⟨Nat.mod_lt k hr, ((Nat.mod_modEq k r).mul_right R).trans hform.symm⟩

/-- **A product through Montgomery form**: both factors are brought to it, multiplied and
brought back. -/
theorem reduce_product (h : IsNegInverse r R r') (hR2 : R2 ≡ R * R [MOD r]) (hR : 0 < R)
    (hr : 0 < r) {a b : Nat}
    (hab : reduce r R r' (a * R2) * reduce r R r' (b * R2) < r * R) :
    reduce r R r' (reduce r R r' (reduce r R r' (a * R2) * reduce r R r' (b * R2)) * 1)
      = a * b % r := by
  have hcop := coprime_of_isNegInverse h
  have hforms := (reduce_mul_square h hR2 a).mul (reduce_mul_square h hR2 b)
  have hmid : reduce r R r' (reduce r R r' (a * R2) * reduce r R r' (b * R2))
      ≡ a * b * R [MOD r] := by
    apply Nat.ModEq.cancel_right_of_coprime hcop
    refine (reduce_mul_modEq h _).trans (hforms.trans ?_)
    rw [show a * R * (b * R) = a * b * R * R by ring]
  have hlt : reduce r R r' (reduce r R r' (a * R2) * reduce r R r' (b * R2)) * 1 < r * R := by
    rw [Nat.mul_one]
    exact Nat.lt_of_lt_of_le (reduce_lt hR hr hab) (Nat.le_mul_of_pos_right r hR)
  symm
  rw [eq_reduce_iff h hR hr hlt, Nat.mul_one]
  exact ⟨Nat.mod_lt _ hr, ((Nat.mod_modEq (a * b) r).mul_right R).trans hmid.symm⟩

end Form

end Montgomery
