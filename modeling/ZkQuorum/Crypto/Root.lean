import ZkQuorum.Crypto.Validation
import ZkQuorum.Crypto.Builds

/-!
# The square root of point decoding (crypto/src/riscv_fourq_verify.c)

For a point (x, y) of the curve x^2 = u / v with u = y^2 - 1 and v = d y^2 + 1. `decode`
takes the root without a test: with n the norm of v the two candidates for x0^2 and -x1^2
are t / 4n, and the sign of the power `(t n^3)^((p - 1) / 2)` says which of the two t is.

**`rootOfY_eq`** is what comes out: x or the conjugate of x, up to sign. The conjugate comes
out only when both components of x are nonzero, so that the sign of x is read from x0.
-/

namespace ZkQuorum.Crypto

open Edwards

/-! ## Powers in GF(p) -/

theorem four_ne_zero_fp : (4 : Fp) ≠ 0 := by
  have h := mul_ne_zero two_ne_zero_fp two_ne_zero_fp
  norm_num at h
  exact h

/-- Euler's criterion: the power is a sign. -/
theorem pow_half {m : Fp} (hm : m ≠ 0) :
    m ^ (2 ^ 126 - 2) * m = 1 ∨ m ^ (2 ^ 126 - 2) * m = -1 := by
  have h := ZMod.pow_div_two_eq_neg_one_or_one p1271 hm
  rw [← pow_succ]
  exact h

/-- The power 2^125 - 1 of a square is the inverse of its root, up to sign. -/
theorem exists_sign_pow {m : Fp} (hm : m ≠ 0) :
    ∃ e : Fp, e * e = 1 ∧ (m * m) ^ (2 ^ 125 - 1) = e * m⁻¹ := by
  have hexp : 2 * (2 ^ 125 - 1) = 2 ^ 126 - 2 := rfl
  have hpow : (m * m) ^ (2 ^ 125 - 1) = m ^ (2 ^ 126 - 2) := by
    rw [← pow_two, ← pow_mul, hexp]
  refine ⟨m ^ (2 ^ 126 - 2) * m, ?_, ?_⟩
  · rcases pow_half hm with h | h
    · rw [h, mul_one]
    · rw [h, neg_mul_neg, mul_one]
  · rw [hpow, mul_inv_cancel_right₀ hm]

/-- The power 2^125 of a square is a root of it. -/
theorem pow_sqr (z : Fp) : (z * z) ^ 2 ^ 125 = z ∨ (z * z) ^ 2 ^ 125 = -z := by
  by_cases hz : z = 0
  · left
    rw [hz, mul_zero]
    exact zero_pow (by decide)
  · have hexp : 2 * 2 ^ 125 = 2 ^ 126 - 2 + 1 + 1 := rfl
    have hpow : (z * z) ^ 2 ^ 125 = z ^ (2 ^ 126 - 2) * z * z := by
      rw [← pow_two, ← pow_mul, ← pow_succ, ← pow_succ, hexp]
    rw [hpow]
    rcases pow_half hz with h | h
    · left
      rw [h, one_mul]
    · right
      rw [h, neg_one_mul]

/-! ## The steps of the root -/

/-- The numerator and the denominator of x^2. -/
theorem ratioFp_eq {x y : Fp2} (h : OnCurve curveD x y) : ∃ n : Fp, n ≠ 0 ∧
    ratioFp y = (n, n * (x.re * x.re - x.im * x.im), 2 * n * x.re * x.im) := by
  have hv : y * y * curveD + 1 ≠ 0 := by
    rw [add_comm, mul_comm]
    exact one_add_ne_zero y
  have hu : y * y - 1 = x * x * (y * y * curveD + 1) := by
    unfold OnCurve at h
    linear_combination h
  have hre := congrArg (·.re) hu
  have him := congrArg (·.im) hu
  simp only [re_mul (x * x), im_mul (x * x), re_mul x x, im_mul x x] at hre him
  refine ⟨normFp (y * y * curveD + 1), normFp_ne_zero hv, ?_⟩
  show (_, _, _) = (_, _, _)
  refine Prod.ext rfl (Prod.ext ?_ ?_)
  · show (y * y - 1).re * _ + (y * y - 1).im * _ = normFp _ * _
    rw [hre, him, normFp]
    ring
  · show (y * y - 1).im * _ - (y * y - 1).re * _ = 2 * normFp _ * _ * _
    rw [hre, him, normFp]
    ring

section Steps

variable {n x0 x1 : Fp}

/-- The candidate is one of the two: 4n x0^2, or -4n x1^2. -/
theorem tFp_eq (hn : n ≠ 0) (x0 x1 : Fp) :
    (x0 ≠ 0 ∧ tFp (n * (x0 * x0 - x1 * x1)) (2 * n * x0 * x1) = 4 * n * (x0 * x0)) ∨
    (x1 ≠ 0 ∧ tFp (n * (x0 * x0 - x1 * x1)) (2 * n * x0 * x1) = -(4 * n * (x1 * x1))) ∨
    (x0 = 0 ∧ x1 = 0 ∧ tFp (n * (x0 * x0 - x1 * x1)) (2 * n * x0 * x1) = 0) := by
  have hnorm : n * (x0 * x0 - x1 * x1) * (n * (x0 * x0 - x1 * x1))
        + 2 * n * x0 * x1 * (2 * n * x0 * x1)
      = n * (x0 * x0 + x1 * x1) * (n * (x0 * x0 + x1 * x1)) := by
    ring
  have htwo : ∀ {x : Fp}, x ≠ 0 → 2 * (n * (x * x)) ≠ 0 := fun hx =>
    mul_ne_zero two_ne_zero_fp (mul_ne_zero hn (mul_ne_zero hx hx))
  unfold tFp
  rw [hnorm]
  -- the exponentiation gives the root of the norm up to sign: with one sign the sum leaves the
  -- square of x0, with the other that of x1, and where that is 0 the difference is taken
  rcases pow_sqr (n * (x0 * x0 + x1 * x1)) with hs | hs
  · have hsum : n * (x0 * x0 - x1 * x1) + n * (x0 * x0 + x1 * x1) = 2 * (n * (x0 * x0)) := by ring
    simp only [hs, hsum]
    by_cases h0 : x0 = 0
    · right
      by_cases h1 : x1 = 0
      · right
        refine ⟨h0, h1, ?_⟩
        rw [h0, h1]
        simp
      · left
        refine ⟨h1, ?_⟩
        rw [h0, mul_zero, mul_zero, mul_zero, if_pos rfl]
        ring
    · left
      refine ⟨h0, ?_⟩
      rw [if_neg (htwo h0)]
      ring
  · have hsum : n * (x0 * x0 - x1 * x1) + -(n * (x0 * x0 + x1 * x1)) = -(2 * (n * (x1 * x1))) := by
      ring
    simp only [hs, hsum, neg_eq_zero]
    by_cases h1 : x1 = 0
    · by_cases h0 : x0 = 0
      · right
        right
        refine ⟨h0, h1, ?_⟩
        rw [h0, h1]
        simp
      · left
        refine ⟨h0, ?_⟩
        rw [h1, mul_zero, mul_zero, mul_zero, if_pos rfl]
        ring
    · right
      left
      refine ⟨h1, ?_⟩
      rw [if_neg (htwo h1)]
      ring

/-- From 4n x0^2 comes x. -/
theorem rootFp_of_re (hn : n ≠ 0) (h0 : x0 ≠ 0) (x1 : Fp) : ∃ e : Fp, e * e = 1 ∧
    rootFp n (4 * n * (x0 * x0)) (2 * n * x0 * x1) = ⟨e * x0, e * x1⟩ := by
  have htwo := two_ne_zero_fp
  have hm : 2 * (n * n) * x0 ≠ 0 := mul_ne_zero (mul_ne_zero htwo (mul_ne_zero hn hn)) h0
  obtain ⟨e, he, hpow⟩ := exists_sign_pow hm
  have hbase : 4 * n * (x0 * x0) * (n * (n * n)) = 2 * (n * n) * x0 * (2 * (n * n) * x0) := by
    ring
  have hw : n * (4 * n * (x0 * x0) * (n * (n * n))) ^ (2 ^ 125 - 1) = e / (2 * n * x0) := by
    rw [hbase, hpow]
    field_simp
  have hx0 : 4 * n * (x0 * x0) * (e / (2 * n * x0)) = 2 * (e * x0) := by
    field_simp
    ring
  have hx1 : 2 * n * x0 * x1 * (e / (2 * n * x0)) = e * x1 := by
    field_simp
  have htest : 4 * n * (x0 * x0) - n * (2 * (e * x0) * (2 * (e * x0))) = 0 := by
    linear_combination -(4 * n * x0 * x0) * he
  refine ⟨e, he, ?_⟩
  simp only [rootFp, hw, hx0, hx1]
  rw [if_pos htest, mul_div_cancel_left₀ _ htwo]

/-- From -4n x1^2 comes the conjugate of x. -/
theorem rootFp_of_im (hn : n ≠ 0) (h1 : x1 ≠ 0) (x0 : Fp) : ∃ e : Fp, e * e = 1 ∧
    rootFp n (-(4 * n * (x1 * x1))) (2 * n * x0 * x1) = ⟨e * x0, -(e * x1)⟩ := by
  have htwo := two_ne_zero_fp
  have hm : 2 * (n * n) * x1 ≠ 0 := mul_ne_zero (mul_ne_zero htwo (mul_ne_zero hn hn)) h1
  obtain ⟨e, he, hpow⟩ := exists_sign_pow hm
  have hbase : -(4 * n * (x1 * x1)) * (n * (n * n))
      = -(2 * (n * n) * x1 * (2 * (n * n) * x1)) := by
    ring
  -- -1 survives the odd exponent, so the test at the end fails and the halves are swapped
  have hodd : Odd (2 ^ 125 - 1) := ⟨2 ^ 124 - 1, rfl⟩
  have hw : n * (-(4 * n * (x1 * x1)) * (n * (n * n))) ^ (2 ^ 125 - 1) = -e / (2 * n * x1) := by
    rw [hbase, hodd.neg_pow, hpow]
    field_simp
  have hx0 : 2 * n * x0 * x1 * (-e / (2 * n * x1)) = -e * x0 := by
    field_simp
  have hx1 : -(4 * n * (x1 * x1)) * (-e / (2 * n * x1)) = 2 * (e * x1) := by
    field_simp
    ring
  have htest : -(4 * n * (x1 * x1)) - n * (2 * (e * x1) * (2 * (e * x1))) ≠ 0 := by
    have hneg : -(4 * n * (x1 * x1)) - n * (2 * (e * x1) * (2 * (e * x1)))
        = -(2 * (4 * n * (x1 * x1))) := by
      linear_combination -(4 * n * x1 * x1) * he
    rw [hneg]
    exact neg_ne_zero.mpr (mul_ne_zero htwo
      (mul_ne_zero (mul_ne_zero four_ne_zero_fp hn) (mul_ne_zero h1 h1)))
  refine ⟨-e, by rw [neg_mul_neg, he], ?_⟩
  simp only [rootFp, hw, hx0, hx1]
  rw [if_neg htest, mul_div_cancel_left₀ _ htwo, neg_mul, neg_mul, neg_neg]

theorem rootFp_zero (n : Fp) : rootFp n 0 0 = 0 := by
  simp only [rootFp, zero_mul, mul_zero, sub_zero, zero_div, if_true]
  rfl

end Steps

/-! ## The root of a point -/

/-- Equal up to sign. -/
def UpToSign (z x : Fp2) : Prop := z = x ∨ z = -x

namespace UpToSign

variable {x y z : Fp2}

theorem neg_left (h : UpToSign z x) : UpToSign (-z) x := by
  rcases h with rfl | rfl
  · exact .inr rfl
  · exact .inl (neg_neg x)

theorem of_neg (h : UpToSign z (-x)) : UpToSign z x := by
  rcases h with rfl | rfl
  · exact .inr rfl
  · exact .inl (neg_neg x)

theorem ne_zero (h : UpToSign z x) (hx : x ≠ 0) : z ≠ 0 := by
  rcases h with rfl | rfl
  · exact hx
  · exact neg_ne_zero.mpr hx

theorem re_ne_zero (h : UpToSign z x) (hx : x.re ≠ 0) : z.re ≠ 0 := by
  rcases h with rfl | rfl
  · exact hx
  · exact neg_ne_zero.mpr hx

theorem conj (h : UpToSign z x) : UpToSign (conjFp2 z) (conjFp2 x) := by
  rcases h with rfl | rfl
  · exact .inl rfl
  · exact .inr rfl

theorem onCurve (h : UpToSign z x) (hx : OnCurve curveD x y) : OnCurve curveD z y := by
  rcases h with rfl | rfl
  · exact hx
  · exact Point.onCurve_neg hx

end UpToSign

theorem conjFp2_conjFp2 (x : Fp2) : conjFp2 (conjFp2 x) = x := Fp2.ext rfl (neg_neg x.im)

/-- A multiple by a sign. -/
theorem upToSign_of_sign {e : Fp} (he : e * e = 1) (a b : Fp) :
    UpToSign ⟨e * a, e * b⟩ ⟨a, b⟩ := by
  rcases mul_self_eq_one_iff.mp he with rfl | rfl
  · left
    rw [one_mul, one_mul]
  · right
    rw [neg_one_mul, neg_one_mul]
    rfl

/-- **The root that `decode` takes**: x or the conjugate of x, up to sign. -/
theorem rootOfY_eq {x y : Fp2} (h : OnCurve curveD x y) :
    UpToSign (rootOfY y) x ∨ (UpToSign (rootOfY y) (conjFp2 x) ∧ x.re ≠ 0 ∧ x.im ≠ 0) := by
  obtain ⟨n, hn, hratio⟩ := ratioFp_eq h
  simp only [rootOfY, hratio]
  rcases tFp_eq hn x.re x.im with ⟨h0, ht⟩ | ⟨h1, ht⟩ | ⟨h0, h1, ht⟩
  · left
    obtain ⟨e, he, hroot⟩ := rootFp_of_re hn h0 x.im
    rw [ht, hroot]
    exact upToSign_of_sign he x.re x.im
  · obtain ⟨e, he, hroot⟩ := rootFp_of_im hn h1 x.re
    have hsign := upToSign_of_sign he x.re (-x.im)
    rw [mul_neg] at hsign
    rw [ht, hroot]
    by_cases h0 : x.re = 0
    · -- the conjugate of a purely imaginary x is its negative
      left
      have hre : x.re = -x.re := by rw [h0, neg_zero]
      have hconj : (⟨x.re, -x.im⟩ : Fp2) = -x := Fp2.ext hre rfl
      rw [hconj] at hsign
      exact hsign.of_neg
    · exact .inr ⟨hsign, h0, h1⟩
  · left
    have hx : x = 0 := Fp2.ext h0 h1
    rw [ht, h0, mul_zero, zero_mul, rootFp_zero, hx]
    exact .inl rfl

/-- x and its conjugate are not both on the curve with one y. -/
theorem not_onCurve_conj {x y : Fp2} (h : OnCurve curveD x y) (hre : x.re ≠ 0) (him : x.im ≠ 0) :
    ¬ OnCurve curveD (conjFp2 x) y := by
  have hself : ∀ {r : Fp}, -r = r → r = 0 := by
    intro r hr
    have htwo : 2 * r = 0 := by linear_combination -hr
    exact (mul_eq_zero.mp htwo).resolve_left two_ne_zero_fp
  intro hconj
  rcases eq_or_eq_neg hconj h with heq | heq
  · exact him (hself (congrArg (·.im) heq))
  · have hneg : x.re = -x.re := congrArg (·.re) heq
    exact hre (hself hneg.symm)

end ZkQuorum.Crypto
