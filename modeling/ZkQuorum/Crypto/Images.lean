import ZkQuorum.Crypto.Endomorphisms
import ZkQuorum.Crypto.Fractions
import ZkQuorum.Crypto.Order

/-!
# The images of the endomorphisms (crypto/src/riscv_fourq_verify.c)

On points of odd order no denominator of `ecc_phi` and `ecc_psi` is 0, so that they have an image
there (**`exists_image_phi`**, **`exists_image_psi`**), and the fractions of
`ZkQuorum.Crypto.Fractions` have the same image. What excludes a zero denominator is that some
constants of the source are not squares (`denominator_constants`).
-/

namespace ZkQuorum.Crypto

open Edwards QuarticCurve

/-! ## What coordinates stand for -/

/-- The projective coordinates stand for (x, y). -/
structure PointExtproj.At (P : PointExtproj Fp2) (B : PointAffine Fp2) : Prop where
  z_ne : P.z ≠ 0
  x : P.x = B.x * P.z
  y : P.y = B.y * P.z

/-- s = x y and p = x^2 + y^2. -/
structure Jacobi.Of (J : Jacobi Fp2) (A : PointAffine Fp2) : Prop where
  e_ne : J.e ≠ 0
  s : J.s = A.x * A.y * J.e
  p : J.p = (A.x * A.x + A.y * A.y) * (J.e * J.e)

/-- The fractions are x and y. -/
structure Fractions.Of (F : Fractions Fp2) (B : PointAffine Fp2) : Prop where
  xd_ne : F.xd ≠ 0
  yd_ne : F.yd ≠ 0
  xn : F.xn = B.x * F.xd
  yn : F.yn = B.y * F.yd

namespace Fractions

/-- No denominator is 0. -/
structure Defined (F : Fractions Fp2) : Prop where
  xd : F.xd ≠ 0
  yd : F.yd ≠ 0

/-- The quotients. -/
noncomputable def value (F : Fractions Fp2) : PointAffine Fp2 := ⟨F.xn / F.xd, F.yn / F.yd⟩

variable {F N : Fractions Fp2} {P : PointExtproj Fp2} {B : PointAffine Fp2} {k l : Fp2}

/-- Fractions that are expanded. -/
theorem Defined.of_expanded (h : N.Defined) (hk : k ≠ 0) (hl : l ≠ 0) (hxn : F.xn = N.xn * k)
    (hxd : F.xd = N.xd * k) (hyn : F.yn = N.yn * l) (hyd : F.yd = N.yd * l) : F.Of N.value where
  xd_ne := by
    rw [hxd]
    exact mul_ne_zero h.xd hk
  yd_ne := by
    rw [hyd]
    exact mul_ne_zero h.yd hl
  xn := by
    rw [hxn, hxd, ← mul_assoc]
    exact congrArg (· * k) (div_mul_cancel₀ N.xn h.xd).symm
  yn := by
    rw [hyn, hyd, ← mul_assoc]
    exact congrArg (· * l) (div_mul_cancel₀ N.yn h.yd).symm

/-- Fractions with a common denominator. -/
theorem Defined.at_common (h : N.Defined) (hk : k ≠ 0) (hx : P.x = N.xn * N.yd * k)
    (hy : P.y = N.yn * N.xd * k) (hz : P.z = N.xd * N.yd * k) : P.At N.value where
  z_ne := by
    rw [hz]
    exact mul_ne_zero (mul_ne_zero h.xd h.yd) hk
  x := by
    have hquot := div_mul_cancel₀ N.xn h.xd
    rw [hx, hz, value]
    linear_combination -(N.yd * k) * hquot
  y := by
    have hquot := div_mul_cancel₀ N.yn h.yd
    rw [hy, hz, value]
    linear_combination -(N.xd * k) * hquot

theorem Of.conj (h : F.Of B) : (F.map conjHom).Of (B.map conjHom) where
  xd_ne := (map_ne_zero conjHom).mpr h.xd_ne
  yd_ne := (map_ne_zero conjHom).mpr h.yd_ne
  xn := (congrArg conjHom h.xn).trans (map_mul conjHom B.x F.xd)
  yn := (congrArg conjHom h.yn).trans (map_mul conjHom B.y F.yd)

/-- The coordinates of a point with the denominators 1. -/
def unit (B : PointAffine Fp2) : Fractions Fp2 := ⟨B.x, 1, B.y, 1⟩

end Fractions

theorem PointExtproj.At.onProjective {P : PointExtproj Fp2} {B : PointAffine Fp2} {D : Fp2}
    (h : P.At B) (hon : OnCurve D B.x B.y) : OnProjective D P.x P.y P.z := by
  unfold OnCurve at hon
  unfold OnProjective
  rw [h.x, h.y]
  linear_combination P.z ^ 4 * hon

theorem PointExtproj.At.onCurve {P : PointExtproj Fp2} {B : PointAffine Fp2} {D : Fp2} (h : P.At B)
    (hon : OnProjective D P.x P.y P.z) : OnCurve D B.x B.y := by
  have hdiv := onCurve_div h.z_ne hon
  rwa [h.x, h.y, mul_div_cancel_right₀ _ h.z_ne, mul_div_cancel_right₀ _ h.z_ne] at hdiv

/-! ## The stages -/

section Stages

variable {P : PointExtproj Fp2} {J : Jacobi Fp2} {F : Fractions Fp2} {A B : PointAffine Fp2}

/-- `ecc_tau` of a point. -/
def tauOf (A : PointAffine Fp2) : Fractions Fp2 :=
  (Jacobi.mk (A.x * A.y) (A.x * A.x + A.y * A.y) 1).tau F2elm.toFp2

/-- `ecc_delphidel` of a point, before the conjugation. -/
def delphidelOf (B : PointAffine Fp2) : Fractions Fp2 := (Fractions.unit B).delphidel F2elm.toFp2

/-- `ecc_delpsidel` of a point, after the conjugation. -/
def delpsidelOf (B : PointAffine Fp2) : Fractions Fp2 := (Fractions.unit B).delpsidel F2elm.toFp2

/-- `ecc_tau_dual` of a point. -/
def tauDualOf (B : PointAffine Fp2) : Fractions Fp2 := (Fractions.unit B).tauDual F2elm.toFp2

theorem Jacobi.Of.tau (h : J.Of A) (hdef : (tauOf A).Defined) :
    (J.tau F2elm.toFp2).Of (tauOf A).value := by
  have hk : J.e * J.e ≠ 0 := mul_ne_zero h.e_ne h.e_ne
  apply hdef.of_expanded hk hk
  · simp only [Jacobi.tau, tauOf, h.s]
    ring
  · exact h.p
  · simp only [Jacobi.tau, tauOf, h.s]
    ring
  · simp only [Jacobi.tau, tauOf, h.s]
    ring

theorem PointExtproj.At.eccTau (h : P.At A) (hon : OnCurve curveD A.x A.y)
    (hdef : (tauOf A).Defined) : (eccTau fp2Ops P).At (tauOf A).value := by
  have hk : P.z ^ 4 ≠ 0 := pow_ne_zero 4 h.z_ne
  have hd : F2elm.toFp2 parameterD = curveD := rfl
  unfold OnCurve at hon
  have hdiff : P.y * P.y - P.x * P.x
      = P.z ^ 2 * (1 + curveD * (A.x * A.y * (A.x * A.y))) := by
    rw [h.x, h.y]
    linear_combination P.z ^ 2 * hon
  have hsum : P.x * P.x + P.y * P.y = P.z ^ 2 * (A.x * A.x + A.y * A.y) := by
    rw [h.x, h.y]
    ring
  have hprod : P.x * P.y = P.z ^ 2 * (A.x * A.y) := by
    rw [h.x, h.y]
    ring
  apply hdef.at_common hk
  · show P.x * P.y * (P.y * P.y - P.x * P.x) * F2elm.toFp2 ctau1 = _
    simp only [hdiff, hprod, tauOf, Jacobi.tau, hd]
    ring
  · show (P.z * P.z + P.z * P.z - (P.y * P.y - P.x * P.x)) * (P.x * P.x + P.y * P.y) = _
    simp only [hdiff, hsum, tauOf, Jacobi.tau, hd]
    ring
  · show (P.x * P.x + P.y * P.y) * (P.y * P.y - P.x * P.x) = _
    simp only [hdiff, hsum, tauOf, Jacobi.tau, hd]
    ring

theorem Fractions.Of.delphidel (h : F.Of B) (hdef : (delphidelOf B).Defined) :
    (F.delphidel F2elm.toFp2).Of (delphidelOf B).value := by
  have hk : F.xd * F.yd ^ 4 ≠ 0 := mul_ne_zero h.xd_ne (pow_ne_zero 4 h.yd_ne)
  have hl : F.yd ^ 5 ≠ 0 := pow_ne_zero 5 h.yd_ne
  apply hdef.of_expanded hk hl
  all_goals
    simp only [Fractions.delphidel, delphidelOf, Fractions.unit, h.xn, h.yn]
    ring

theorem Fractions.Of.delpsidel (h : F.Of B) (hdef : (delpsidelOf B).Defined) :
    (F.delpsidel F2elm.toFp2).Of (delpsidelOf B).value := by
  have hk : F.xd ^ 2 * F.yd ≠ 0 := mul_ne_zero (pow_ne_zero 2 h.xd_ne) h.yd_ne
  have hl : F.xd ^ 2 ≠ 0 := pow_ne_zero 2 h.xd_ne
  have hzero : F2elm.toFp2 .zero = 0 := rfl
  apply hdef.of_expanded hk hl
  all_goals
    simp only [Fractions.delpsidel, delpsidelOf, Fractions.unit, h.xn, h.yn, hzero]
    ring

theorem Fractions.Of.tauDual (h : F.Of B) (hdef : (tauDualOf B).Defined) :
    (F.tauDual F2elm.toFp2).Of (tauDualOf B).value := by
  have hk : (F.xd * F.yd) ^ 2 ≠ 0 := pow_ne_zero 2 (mul_ne_zero h.xd_ne h.yd_ne)
  apply hdef.of_expanded hk hk
  all_goals
    simp only [Fractions.tauDual, tauDualOf, Fractions.unit, h.xn, h.yn]
    ring

theorem PointExtproj.At.conj (h : P.At B) {R : PointExtproj Fp2} (hx : R.x = conjHom P.x)
    (hy : R.y = conjHom P.y) (hz : R.z = conjHom P.z) : R.At (B.map conjHom) where
  z_ne := by
    rw [hz]
    exact (map_ne_zero conjHom).mpr h.z_ne
  x := by
    rw [hx, hz, h.x]
    exact map_mul conjHom B.x P.z
  y := by
    rw [hy, hz, h.y]
    exact map_mul conjHom B.y P.z

/-- The field without its conjugation. -/
def plainOps : F2Ops Fp2 := { fp2Ops with fpneg1271 := id }

theorem PointExtproj.At.eccDelphidel (h : P.At B) (hdef : (delphidelOf B).Defined) :
    (eccDelphidel fp2Ops P).At ((delphidelOf B).value.map conjHom) := by
  have hk : P.z ^ 10 ≠ 0 := pow_ne_zero 10 h.z_ne
  have hplain : (Crypto.eccDelphidel plainOps P).At (delphidelOf B).value := by
    apply hdef.at_common hk
    all_goals
      simp only [Crypto.eccDelphidel, plainOps, fp2Ops, id_eq, delphidelOf, Fractions.delphidel,
        Fractions.unit, h.x, h.y]
      ring
  exact hplain.conj rfl rfl rfl

theorem PointExtproj.At.eccDelpsidel (h : P.At B)
    (hdef : (delpsidelOf (B.map conjHom)).Defined) :
    (eccDelpsidel fp2Ops P).At (delpsidelOf (B.map conjHom)).value := by
  -- the source conjugates first
  have hconj : (PointExtproj.map conjHom P).At (B.map conjHom) := h.conj rfl rfl rfl
  have hk : (conjHom P.z) ^ 5 ≠ 0 := pow_ne_zero 5 hconj.z_ne
  have hzero : F2elm.toFp2 .zero = 0 := rfl
  have hx : conjHom P.x = (B.map conjHom).x * conjHom P.z := hconj.x
  have hy : conjHom P.y = (B.map conjHom).y * conjHom P.z := hconj.y
  have hops : Crypto.eccDelpsidel fp2Ops P
      = Crypto.eccDelpsidel plainOps ⟨conjHom P.x, conjHom P.y, conjHom P.z, P.ta, P.tb⟩ := rfl
  rw [hops]
  apply hdef.at_common hk
  all_goals
    simp only [Crypto.eccDelpsidel, plainOps, fp2Ops, id_eq, delpsidelOf, Fractions.delpsidel,
      Fractions.unit, hx, hy, hzero]
    ring

theorem PointExtproj.At.eccTauDual (h : P.At B) (hdef : (tauDualOf B).Defined) :
    (eccTauDual fp2Ops P).At (tauDualOf B).value := by
  have hk : P.z ^ 4 ≠ 0 := pow_ne_zero 4 h.z_ne
  apply hdef.at_common hk
  · show P.x * P.y * F2elm.toFp2 ctaudual1 * (P.x * P.x + P.y * P.y) = _
    simp only [tauDualOf, Fractions.tauDual, Fractions.unit, h.x, h.y]
    ring
  · show (P.z * P.z + P.z * P.z - (P.y * P.y - P.x * P.x)) * (P.y * P.y - P.x * P.x) = _
    simp only [tauDualOf, Fractions.tauDual, Fractions.unit, h.x, h.y]
    ring
  · show (P.z * P.z + P.z * P.z - (P.y * P.y - P.x * P.x)) * (P.x * P.x + P.y * P.y) = _
    simp only [tauDualOf, Fractions.tauDual, Fractions.unit, h.x, h.y]
    ring

end Stages

/-! ## Denominators -/

/-- A field element with a norm that is not a square. -/
theorem not_isSquare_of_norm {x : Fp2} {n : Int} (hnorm : normFp x = (n : Fp))
    (hn : jacobiSym n p1271 = -1) : ¬ IsSquare x := by
  rintro ⟨r, hr⟩
  have hsq : IsSquare (normFp x) := ⟨normFp r, by rw [hr, normFp_mul]⟩
  rw [hnorm] at hsq
  exact ZMod.nonsquare_of_jacobiSym_eq_neg_one hn hsq

/-- The discriminants of the two denominators of `ecc_delphidel`, the one of `ecc_delpsidel` and
that of `ecc_tau_dual`. -/
structure DenominatorConstants : Prop where
  phi : ¬ IsSquare (cphi3.toFp2 * cphi3.toFp2 - 4 * cphi4.toFp2)
  phiY : ¬ IsSquare (cphi8.toFp2 * cphi8.toFp2 - 4 * cphi9.toFp2)
  psi : ¬ IsSquare (-cpsi4.toFp2)
  dual : ¬ IsSquare (1 + isogenousD)
  isogenous : IsSquare isogenousD

theorem denominator_norms :
    normFp (cphi3.toFp2 * cphi3.toFp2 - 4 * cphi4.toFp2) = ((737869762948382064700 : Int) : Fp) ∧
      normFp (cphi8.toFp2 * cphi8.toFp2 - 4 * cphi9.toFp2)
        = ((602101726565879764792400 : Int) : Fp) ∧
      normFp (-cpsi4.toFp2) = ((170141183460469231510326374831369486318 : Int) : Fp) ∧
      normFp (1 + isogenousD) = ((885443715538058477500 : Int) : Fp) := by
  decide +kernel

/-- A square root of `isogenousD`. -/
def rootIsogenousD : Fp2 :=
  ⟨0x2553a0759182c3294f65536cef66f81a, 0x7ffffffffffffffa0000000000000008⟩

theorem denominator_constants : DenominatorConstants where
  phi := not_isSquare_of_norm denominator_norms.1 (by norm_num)
  phiY := not_isSquare_of_norm denominator_norms.2.1 (by norm_num)
  psi := not_isSquare_of_norm denominator_norms.2.2.1 (by norm_num)
  dual := not_isSquare_of_norm denominator_norms.2.2.2 (by norm_num)
  isogenous := ⟨rootIsogenousD, by decide +kernel⟩

/-- A quadratic whose discriminant is not a square has no root. -/
theorem quadratic_ne_zero {b c y : Fp2} (h : ¬ IsSquare (b * b - 4 * c)) :
    y * y + b * y + c ≠ 0 := by
  intro hroot
  refine h ⟨2 * y + b, ?_⟩
  linear_combination -4 * hroot

section Denominators

variable {B : PointAffine Fp2}

theorem delphidelOf_defined (hy : B.y ≠ 0) : (delphidelOf B).Defined where
  xd := by
    have hplus := quadratic_ne_zero (y := B.y) denominator_constants.phi
    have hminus := quadratic_ne_zero (b := -cphi3.toFp2) (y := B.y)
      (by rw [neg_mul_neg]; exact denominator_constants.phi)
    have hxd : (delphidelOf B).xd = (B.y * B.y + cphi3.toFp2 * B.y + cphi4.toFp2)
        * (B.y * B.y + -cphi3.toFp2 * B.y + cphi4.toFp2) := by
      simp only [delphidelOf, Fractions.delphidel, Fractions.unit]
      ring
    rw [hxd]
    exact mul_ne_zero hplus hminus
  yd := by
    have hfactor := quadratic_ne_zero (y := B.y * B.y) denominator_constants.phiY
    have hyd : (delphidelOf B).yd = B.y
        * (B.y * B.y * (B.y * B.y) + cphi8.toFp2 * (B.y * B.y) + cphi9.toFp2) := by
      simp only [delphidelOf, Fractions.delphidel, Fractions.unit]
      ring
    rw [hyd]
    exact mul_ne_zero hy hfactor

theorem delpsidelOf_defined (hy : B.y ≠ 0) (hon : OnCurve isogenousD B.x B.y) :
    (delpsidelOf (B.map conjHom)).Defined where
  xd := by
    have hxd : (delpsidelOf (B.map conjHom)).xd
        = conjHom B.y * (conjHom B.x * conjHom B.x + cpsi2.toFp2) := by
      simp only [delpsidelOf, Fractions.delpsidel, Fractions.unit, PointAffine.map]
      ring
    rw [hxd]
    refine mul_ne_zero ((map_ne_zero conjHom).mpr hy) fun hx => ?_
    -- x^2 is 1 / isogenousD, and then -1 by the curve equation
    have hc2 := congrArg conjHom psi_constants.2.1
    rw [map_mul, conjHom_conjHom, map_neg, map_one] at hc2
    have hxx := congrArg conjHom hx
    rw [map_add, map_mul, conjHom_conjHom, map_zero] at hxx
    have hone : isogenousD * (B.x * B.x) = 1 := by
      linear_combination isogenousD * hxx - hc2
    unfold OnCurve at hon
    have hneg : isogenousD = -1 := by
      have hx1 : B.x * B.x = -1 := by linear_combination -hon - B.y * B.y * hone
      rw [hx1] at hone
      linear_combination -hone
    apply denominator_constants.dual
    rw [hneg, add_neg_cancel]
    exact IsSquare.zero
  yd := by
    have hyd : (delpsidelOf (B.map conjHom)).yd
        = -(conjHom B.x * conjHom B.x + cpsi4.toFp2) := by
      have hzero : F2elm.toFp2 .zero = 0 := rfl
      simp only [delpsidelOf, Fractions.delpsidel, Fractions.unit, PointAffine.map, hzero]
      ring
    rw [hyd]
    refine neg_ne_zero.mpr fun hx => denominator_constants.psi ⟨conjHom B.x, ?_⟩
    linear_combination -hx

theorem tauDualOf_defined (hon : OnCurve isogenousD B.x B.y) : (tauDualOf B).Defined where
  xd := by
    intro hxd
    have hw : 2 - (B.y * B.y - B.x * B.x) = 0 := by
      rw [← hxd]
      simp only [tauDualOf, Fractions.tauDual, Fractions.unit]
      ring
    obtain ⟨r, hr⟩ := denominator_constants.isogenous
    have hr0 : r ≠ 0 := by
      rintro rfl
      rw [mul_zero] at hr
      exact absurd hr (by decide +kernel)
    unfold OnCurve at hon
    refine denominator_constants.dual ⟨isogenousD * (B.x * B.x + 1) / r, ?_⟩
    rw [div_mul_div_comm, eq_div_iff (mul_ne_zero hr0 hr0), ← hr]
    linear_combination isogenousD * hon + (isogenousD - isogenousD * isogenousD * (B.x * B.x)) * hw
  yd := by
    intro hyd
    have hsum : B.y * B.y + B.x * B.x = 0 := by
      rw [← hyd]
      simp only [tauDualOf, Fractions.tauDual, Fractions.unit]
      ring
    unfold OnCurve at hon
    refine denominator_constants.dual ⟨isogenousD * (B.y * B.y) + 1, ?_⟩
    linear_combination -isogenousD * hon
      - (isogenousD + isogenousD * isogenousD * (B.y * B.y)) * hsum

end Denominators

/-! ## Points of odd order -/

/-- An odd multiple of the point is 0. -/
def OddOrder (A : CurvePoint) : Prop := ∃ n, n % 2 = 1 ∧ n • A = 0

theorem oddOrder_nsmul (n : Nat) : OddOrder (n • basePoint 0) := by
  refine ⟨orderNat, order_odd, ?_⟩
  rw [← mul_nsmul, mul_comm, mul_nsmul, orderNat_nsmul_basePoint, nsmul_zero]

/-- Only 0 has an order that is odd and divides 8. -/
theorem OddOrder.eq_zero {A : CurvePoint} (h : OddOrder A) (height : 8 • A = 0) : A = 0 := by
  obtain ⟨n, hodd, hn⟩ := h
  have hdvd := Nat.dvd_gcd (addOrderOf_dvd_of_nsmul_eq_zero height)
    (addOrderOf_dvd_of_nsmul_eq_zero hn)
  have hgcd : Nat.gcd (2 ^ 3) n = 1 := by
    apply Nat.Coprime.pow_left
    rw [Nat.coprime_two_left]
    exact Nat.odd_iff.mpr hodd
  rw [show 8 = 2 ^ 3 from rfl, hgcd, Nat.dvd_one] at hdvd
  exact AddMonoid.addOrderOf_eq_one_iff.mp hdvd

/-- p is not 0: otherwise 8 A = 0. -/
theorem OddOrder.sumSquares_ne_zero {A : CurvePoint} (h : OddOrder A) :
    A.x * A.x + A.y * A.y ≠ 0 := by
  intro hp
  have hy : (A + A).y = 0 := by
    show (A.y * A.y + A.x * A.x) / _ = 0
    rw [add_comm, hp, zero_div]
  have hx : (A + A).x * (A + A).x = -1 := by
    have hon := (A + A).on
    unfold OnCurve at hon
    rw [hy] at hon
    linear_combination -hon
  have hfour : A + A + (A + A) = Point.order2 := by
    apply Point.ext
    · show ((A + A).x * (A + A).y + (A + A).y * (A + A).x) / _ = 0
      rw [hy, mul_zero, zero_mul, add_zero, zero_div]
    · show ((A + A).y * (A + A).y + (A + A).x * (A + A).x)
        / (1 - curveD * (A + A).x * (A + A).x * (A + A).y * (A + A).y) = -1
      rw [hx, hy]
      ring
  have height : 8 • A = 0 := by
    have hsplit : 8 • A = A + A + (A + A) + (A + A + (A + A)) := by abel
    rw [hsplit, hfour, Point.order2_add_order2]
  have hzero := h.eq_zero height
  rw [hzero] at hp
  have hone : (0 : Fp2) * 0 + 1 * 1 = 0 := hp
  rw [mul_zero, zero_add, mul_one] at hone
  exact one_ne_zero hone

/-! ## Images -/

/-- The point B is the image of A, in the coordinates of the source and as fractions. -/
structure IsImage (endo : PointExtproj Fp2 → PointExtproj Fp2) (F : Formula)
    (A B : CurvePoint) : Prop where
  point : ∀ P, RepresentsFp2 P A → RepresentsFp2 (endo P) B
  fractions : ∀ J : Jacobi Fp2, J.Of ⟨A.x, A.y⟩ →
    (F.run F2elm.toFp2 (J.map conjHom)).Of ⟨B.x, B.y⟩

theorem conjConst_toFp2 : conjConst F2elm.toFp2 = fun a => conjHom a.toFp2 := by
  funext a
  exact Fp2.ext rfl (toFp_fpneg1271 a.c1)

theorem respects_conjHom : Respects conjHom :=
  ⟨map_add conjHom, map_sub conjHom, map_mul conjHom⟩

theorem RepresentsFp2.at {P : PointExtproj Fp2} {A : CurvePoint} (h : RepresentsFp2 P A) :
    P.At ⟨A.x, A.y⟩ :=
  ⟨h.z_ne, h.x, h.y⟩

/-- The extended coordinates of a point of the curve. -/
theorem ExtendedOnCurve.representsFp2 {P : PointExtproj Fp2} (h : ExtendedOnCurve P)
    {B : CurvePoint} (hP : P.At ⟨B.x, B.y⟩) : RepresentsFp2 P B :=
  ⟨hP.z_ne, hP.x, hP.y, h.t⟩

section Image

variable {A : CurvePoint}

theorem tauOf_defined (h : OddOrder A) : (tauOf ⟨A.x, A.y⟩).Defined where
  xd := h.sumSquares_ne_zero
  yd := by
    have hden := (den_ne_zero A.on A.on).1
    have hyd : (tauOf ⟨A.x, A.y⟩).yd = 1 + curveD * A.x * A.x * A.y * A.y := by
      show 1 * 1 + curveD * (A.x * A.y * (A.x * A.y)) = _
      ring
    rw [hyd]
    exact hden

/-- The second coordinate after `ecc_tau` is not 0. -/
theorem y_tauOf_ne_zero (h : OddOrder A) : (tauOf ⟨A.x, A.y⟩).value.y ≠ 0 := by
  have hden := (den_ne_zero A.on A.on).2
  have hyn : (tauOf ⟨A.x, A.y⟩).yn = 1 - curveD * A.x * A.x * A.y * A.y := by
    show 1 * 1 - curveD * (A.x * A.y * (A.x * A.y)) = _
    ring
  exact div_ne_zero (by rw [hyn]; exact hden) (tauOf_defined h).yd

theorem onCurve_tauOf (h : OddOrder A) :
    OnCurve isogenousD (tauOf ⟨A.x, A.y⟩).value.x (tauOf ⟨A.x, A.y⟩).value.y := by
  have hP := (representsFp2_pointSetup A).at
  exact (hP.eccTau A.on (tauOf_defined h)).onCurve (eccTau_on (hP.onProjective A.on))

/-- The last stage: an image on the second curve becomes one on the first. -/
theorem onCurve_tauDualOf {B : PointAffine Fp2} (hon : OnCurve isogenousD B.x B.y) :
    OnCurve curveD (tauDualOf B).value.x (tauDualOf B).value.y := by
  let P : PointExtproj Fp2 := ⟨B.x, B.y, 1, B.x, B.y⟩
  have hP : P.At B := ⟨one_ne_zero, (mul_one B.x).symm, (mul_one B.y).symm⟩
  exact (hP.eccTauDual (tauDualOf_defined hon)).onCurve (eccTauDual_on (hP.onProjective hon))

/-- **`ecc_phi` has an image of every point of odd order.** -/
theorem exists_image_phi (h : OddOrder A) :
    ∃ B : CurvePoint, IsImage (eccPhi fp2Ops) phiFormula A B := by
  have htau := tauOf_defined h
  have hdel := delphidelOf_defined (y_tauOf_ne_zero h)
  have hstage : ∀ P, RepresentsFp2 P A → (eccDelphidel fp2Ops (eccTau fp2Ops P)).At
      ((delphidelOf (tauOf ⟨A.x, A.y⟩).value).value.map conjHom) :=
    fun P hP => (hP.at.eccTau A.on htau).eccDelphidel hdel
  have hon : OnCurve isogenousD ((delphidelOf (tauOf ⟨A.x, A.y⟩).value).value.map conjHom).x
      ((delphidelOf (tauOf ⟨A.x, A.y⟩).value).value.map conjHom).y := by
    have hP := representsFp2_pointSetup A
    exact (hstage _ hP).onCurve (eccDelphidel_on (eccTau_on (hP.at.onProjective A.on)))
  have hdual := tauDualOf_defined hon
  refine ⟨⟨_, _, onCurve_tauDualOf hon⟩, ?_, ?_⟩
  · intro P hP
    have hextended := eccPhi_extended (hP.at.onProjective A.on)
    exact hextended.representsFp2 ((hstage P hP).eccTauDual hdual)
  · intro J hJ
    have hrun : phiFormula.run F2elm.toFp2 (J.map conjHom)
        = (((J.tau F2elm.toFp2).delphidel F2elm.toFp2).map conjHom).tauDual F2elm.toFp2 := by
      rw [Natural.map_delphidel respects_conjHom, Natural.map_tau respects_conjHom,
        ← conjConst_toFp2]
      rfl
    rw [hrun]
    exact (((hJ.tau htau).delphidel hdel).conj).tauDual hdual

/-- **`ecc_psi` has an image of every point of odd order.** -/
theorem exists_image_psi (h : OddOrder A) :
    ∃ B : CurvePoint, IsImage (eccPsi fp2Ops) psiFormula A B := by
  have htau := tauOf_defined h
  have hdel := delpsidelOf_defined (y_tauOf_ne_zero h) (onCurve_tauOf h)
  have hstage : ∀ P, RepresentsFp2 P A → (eccDelpsidel fp2Ops (eccTau fp2Ops P)).At
      (delpsidelOf ((tauOf ⟨A.x, A.y⟩).value.map conjHom)).value :=
    fun P hP => (hP.at.eccTau A.on htau).eccDelpsidel hdel
  have hon : OnCurve isogenousD (delpsidelOf ((tauOf ⟨A.x, A.y⟩).value.map conjHom)).value.x
      (delpsidelOf ((tauOf ⟨A.x, A.y⟩).value.map conjHom)).value.y := by
    have hP := representsFp2_pointSetup A
    exact (hstage _ hP).onCurve (eccDelpsidel_on (eccTau_on (hP.at.onProjective A.on)))
  have hdual := tauDualOf_defined hon
  refine ⟨⟨_, _, onCurve_tauDualOf hon⟩, ?_, ?_⟩
  · intro P hP
    have hextended := eccPsi_extended (hP.at.onProjective A.on)
    exact hextended.representsFp2 ((hstage P hP).eccTauDual hdual)
  · intro J hJ
    have hrun : psiFormula.run F2elm.toFp2 (J.map conjHom)
        = (((J.tau F2elm.toFp2).map conjHom).delpsidel F2elm.toFp2).tauDual F2elm.toFp2 := by
      rw [Natural.map_tau respects_conjHom, ← conjConst_toFp2]
      rfl
    rw [hrun]
    exact (((hJ.tau htau).conj).delpsidel hdel).tauDual hdual

end Image

end ZkQuorum.Crypto
