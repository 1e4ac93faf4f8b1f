import Mathlib.FieldTheory.Finite.Basic
import Mathlib.Data.Nat.Prime.Basic
import Mathlib.NumberTheory.LucasPrimality

/-!
# Primality from known factors of n - 1

Pocklington's test. When q is a prime factor of n - 1, and a has a^(n-1) = 1 modulo n while
a^((n-1)/q) - 1 has no factor in common with n, then q divides r - 1 for every prime factor r of
n. A number F that divides all of them is below the smallest one, so n is prime as soon as
(F + 1)^2 is above n.

- `powMod`: powers modulo n, by squaring;
- **`dvd_sub_one`**: the test for one factor, as a computation (`Passes`);
- **`prime_of_dvd_sub_one`**: the conclusion.
-/

namespace Pocklington

/-! ## Powers -/

/-- A power modulo `n`, by the `bits` low bits of the exponent. -/
def powMod (n a : Nat) : Nat → Nat → Nat
  | 0, _ => 1
  | bits + 1, e => powMod n a bits (e / 2) ^ 2 * a ^ (e % 2) % n

theorem powMod_modEq (n a bits e : Nat) : powMod n a bits e ≡ a ^ (e % 2 ^ bits) [MOD n] := by
  induction bits generalizing e with
  | zero =>
    rw [powMod, pow_zero, Nat.mod_one, pow_zero]
  | succ bits ih =>
    have hsplit : e % 2 ^ (bits + 1) = e / 2 % 2 ^ bits * 2 + e % 2 := by
      rw [pow_succ', Nat.mod_mul]
      ring
    rw [powMod, hsplit, pow_add, pow_mul]
    exact (Nat.mod_modEq _ _).trans (((ih _).pow 2).mul_right _)

/-! ## The test -/

/-- The test of `n` for the factor `q` of `n - 1 = q * m`. -/
def Passes (bits n a q m : Nat) : Prop :=
  q * m + 1 = n ∧ n < 2 ^ bits ∧ powMod n a bits (q * m) % n = 1 % n ∧
    (powMod n a bits m + q * m).gcd n = 1

instance (bits n a q m : Nat) : Decidable (Passes bits n a q m) := by
  unfold Passes
  infer_instance

/-- **A prime that passes the test divides r - 1 for every prime factor r of n.** -/
theorem dvd_sub_one {bits n a q m r : Nat} (h : Passes bits n a q m) (hq : q.Prime)
    (hr : r.Prime) (hrn : r ∣ n) : q ∣ r - 1 := by
  obtain ⟨hn, hbits, hfull, hpart⟩ := h
  have := Fact.mk hr
  have := Fact.mk hq
  have hpower : ∀ e, e ≤ q * m → ((powMod n a bits e : Nat) : ZMod r) = (a : ZMod r) ^ e := by
    intro e he
    have hmod := (powMod_modEq n a bits e).of_dvd hrn
    rw [Nat.mod_eq_of_lt (by omega)] at hmod
    rw [← Nat.cast_pow]
    exact (ZMod.natCast_eq_natCast_iff _ _ _).mpr hmod
  have hroot : (a : ZMod r) ^ (q * m) = 1 := by
    have hcast := (ZMod.natCast_eq_natCast_iff _ 1 r).mpr (Nat.ModEq.of_dvd hrn hfull)
    rwa [hpower _ (Nat.le_refl _), Nat.cast_one] at hcast
  have hne : (a : ZMod r) ^ m ≠ 1 := by
    intro hone
    rw [← hpower m (Nat.le_mul_of_pos_left m hq.pos)] at hone
    have hcommon : r ∣ powMod n a bits m + q * m := by
      rw [← CharP.cast_eq_zero_iff (ZMod r), Nat.cast_add, hone, add_comm, ← Nat.cast_add_one, hn]
      exact (CharP.cast_eq_zero_iff _ r _).mpr hrn
    exact hr.one_lt.ne' (Nat.dvd_one.mp (hpart ▸ Nat.dvd_gcd hcommon hrn))
  -- a^m has order q, which divides the order of the unit group
  have horder : orderOf ((a : ZMod r) ^ m) = q := by
    refine orderOf_eq_prime ?_ hne
    rw [← pow_mul, mul_comm, hroot]
  have hnonzero : (a : ZMod r) ^ m ≠ 0 := by
    intro hzero
    rw [mul_comm, pow_mul, hzero, zero_pow hq.ne_zero] at hroot
    exact zero_ne_one hroot
  rw [← horder]
  exact ZMod.orderOf_dvd_card_sub_one hnonzero

/-- **A number is prime** when a large number divides r - 1 for all its prime factors r. -/
theorem prime_of_dvd_sub_one {n F : Nat} (hn : 1 < n)
    (h : ∀ r, r.Prime → r ∣ n → F ∣ r - 1) (hF : n < (F + 1) ^ 2) : n.Prime := by
  have hmin := Nat.minFac_prime hn.ne'
  have hle := Nat.le_of_dvd (Nat.sub_pos_of_lt hmin.one_lt) (h _ hmin (Nat.minFac_dvd n))
  by_contra hnot
  have hsq := Nat.minFac_sq_le_self (Nat.lt_of_succ_lt hn) hnot
  have hlt : (F + 1) ^ 2 ≤ n.minFac ^ 2 := Nat.pow_le_pow_left (by have := hmin.one_lt; omega) 2
  omega

/-- Two prime factors at once. -/
theorem mul_dvd_sub_one {q q' r : Nat} (hq : q.Prime) (hq' : q'.Prime) (hne : q ≠ q')
    (h : q ∣ r - 1) (h' : q' ∣ r - 1) : q * q' ∣ r - 1 :=
  ((Nat.coprime_primes hq hq').mpr hne).mul_dvd_of_dvd_of_dvd h h'

end Pocklington
