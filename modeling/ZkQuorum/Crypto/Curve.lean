import ZkQuorum.Crypto.MulDouble
import ZkQuorum.Crypto.Decode
import ZkQuorum.Lib.Edwards
import Mathlib.Tactic.NormNum.LegendreSymbol

/-!
# Points of FourQ (crypto/src/riscv_fourq_verify.c)

FourQ is the curve -x^2 + y^2 = 1 + d x^2 y^2 over GF(p^2). In GF(p^2) -1 is a square and
d is not, so that the addition law is complete and the points are a group (`CurvePoint`).

`Represents` is what the five coordinates of a `point_extproj` stand for. Each operation
of the source keeps it, and computes in the group: doubling, addition of the four kinds of
precomputed points and of their negatives. **`point_operations`** collects them.
-/

namespace ZkQuorum.Crypto

open Edwards

/-! ## The curve -/

/-- -1 is not a square in GF(p). -/
instance : Fact (∀ r : Fp, r ^ 2 ≠ -1 + 0 * r) := ⟨fun r h => by
  have hsq : IsSquare (-1 : Fp) := ⟨r, by rw [← pow_two, h, zero_mul, add_zero]⟩
  have hmod := ZMod.exists_sq_eq_neg_one_iff.mp hsq
  exact absurd hmod (by decide)⟩

/-- The imaginary unit of GF(p^2). -/
def unitI : Fp2 := ⟨0, 1⟩

theorem unitI_mul_self : unitI * unitI = -1 := by
  apply Fp2.ext
  · rw [re_mul]
    show (0 : Fp) * 0 - 1 * 1 = -1
    ring
  · rw [im_mul]
    show (0 : Fp) * 1 + 1 * 0 = -0
    ring

/-- The norm of GF(p^2) over GF(p). -/
def normFp (x : Fp2) : Fp := x.re * x.re + x.im * x.im

theorem normFp_mul (x y : Fp2) : normFp (x * y) = normFp x * normFp y := by
  simp only [normFp, re_mul, im_mul]
  ring

theorem normFp_curveD : normFp curveD = ((170141183460469230846243588177825628091 : ℤ) : Fp) := by
  decide +kernel

theorem not_isSquare_curveD : ¬ IsSquare curveD := by
  rintro ⟨s, hs⟩
  have hnorm : IsSquare (normFp curveD) := ⟨normFp s, by rw [hs, normFp_mul]⟩
  rw [normFp_curveD] at hnorm
  have hjacobi : jacobiSym 170141183460469230846243588177825628091 p1271 = -1 := by
    norm_num
  exact ZMod.nonsquare_of_jacobiSym_eq_neg_one hjacobi hnorm

theorem two_ne_zero_fp2 : (2 : Fp2) ≠ 0 := by
  intro h
  exact two_ne_zero_fp (congrArg (·.re) h)

theorem four_ne_zero_fp2 : (4 : Fp2) ≠ 0 := by
  have h := mul_ne_zero two_ne_zero_fp2 two_ne_zero_fp2
  norm_num at h
  exact h

instance : Complete curveD where
  two_ne_zero := two_ne_zero_fp2
  neg_one := ⟨unitI, unitI_mul_self.symm⟩
  nonsquare := not_isSquare_curveD

/-- A point of FourQ. -/
abbrev CurvePoint := Edwards.Point curveD

/-- The point (i, 0) of order 4. -/
def orderFour : CurvePoint := ⟨unitI, 0, by
  show (0 : Fp2) * 0 - unitI * unitI = 1 + curveD * (unitI * unitI) * (0 * 0)
  rw [unitI_mul_self]
  ring⟩

/-- The affine coordinates of a point, with all components below p. -/
def reduced (A : CurvePoint) : PointAffine F2elm := ⟨.ofFp2 A.x, .ofFp2 A.y⟩

theorem map_reduced (A : CurvePoint) : (reduced A).map F2elm.toFp2 = ⟨A.x, A.y⟩ := by
  rw [PointAffine.map, reduced, toFp2_ofFp2, toFp2_ofFp2]

/-! ## Representations -/

/-- The five coordinates stand for the point A: Z is not 0, X and Y are multiples of it, and
Ta Tb is the T of (X : Y : Z). -/
structure RepresentsFp2 (P : PointExtproj Fp2) (A : CurvePoint) : Prop where
  z_ne : P.z ≠ 0
  x : P.x = A.x * P.z
  y : P.y = A.y * P.z
  t : P.ta * P.tb * P.z = P.x * P.y

/-- (X + Y, Y - X, 2Z, 2dT). -/
structure IsR2 (Q : PointExtprojPrecomp Fp2) (A : CurvePoint) (z : Fp2) : Prop where
  z_ne : z ≠ 0
  xy : Q.xy = (A.x + A.y) * z
  yx : Q.yx = (A.y - A.x) * z
  z2 : Q.z2 = 2 * z
  t2 : Q.t2 = 2 * curveD * A.x * A.y * z

/-- (X + Y, Y - X, Z, T). -/
structure IsR3 (Q : PointExtprojPrecomp Fp2) (A : CurvePoint) (z : Fp2) : Prop where
  z_ne : z ≠ 0
  xy : Q.xy = (A.x + A.y) * z
  yx : Q.yx = (A.y - A.x) * z
  z2 : Q.z2 = z
  t2 : Q.t2 = A.x * A.y * z

/-- (x + y, y - x, 2dxy). -/
structure IsPrecompFp2 (Q : PointPrecomp Fp2) (A : CurvePoint) : Prop where
  xy : Q.xy = A.x + A.y
  yx : Q.yx = A.y - A.x
  t2 : Q.t2 = 2 * curveD * A.x * A.y

/-- The coordinates stand for the point A, whatever the representation of zero. -/
def Represents (P : PointExtproj F2elm) (A : CurvePoint) : Prop :=
  RepresentsFp2 (P.map F2elm.toFp2) A

/-- The precomputed point (x + y, y - x, 2dxy) of A. -/
def IsPrecomp (Q : PointPrecomp F2elm) (A : CurvePoint) : Prop :=
  IsPrecompFp2 (Q.map F2elm.toFp2) A

/-! ## The operations over the field -/

section Operations

variable {P : PointExtproj Fp2} {Q R : PointExtprojPrecomp Fp2} {M : PointPrecomp Fp2}
  {A B : CurvePoint} {z w : Fp2}

theorem representsFp2_pointSetup (A : CurvePoint) :
    RepresentsFp2 (pointSetup fp2Ops ⟨A.x, A.y⟩) A := by
  have hone : (pointSetup fp2Ops ⟨A.x, A.y⟩).z = 1 := toFp2_one
  refine { z_ne := ?_, x := ?_, y := ?_, t := ?_ }
  · rw [hone]
    exact one_ne_zero
  · rw [hone, mul_one]
    rfl
  · rw [hone, mul_one]
    rfl
  · rw [hone, mul_one]
    rfl

/-- T of a represented point. -/
theorem RepresentsFp2.t_eq (h : RepresentsFp2 P A) : P.ta * P.tb = A.x * A.y * P.z := by
  apply mul_right_cancel₀ h.z_ne
  rw [h.t, h.x, h.y]
  ring

theorem RepresentsFp2.r1ToR2 (h : RepresentsFp2 P A) : IsR2 (r1ToR2 fp2Ops P) A P.z := by
  have ht := h.t_eq
  refine { z_ne := h.z_ne, xy := ?_, yx := ?_, z2 := ?_, t2 := ?_ }
  · show P.x + P.y = _
    rw [h.x, h.y]
    ring
  · show P.y - P.x = _
    rw [h.x, h.y]
    ring
  · show P.z + P.z = _
    ring
  · show (P.ta + P.ta) * P.tb * curveD = _
    linear_combination 2 * curveD * ht

theorem RepresentsFp2.r1ToR3 (h : RepresentsFp2 P A) : IsR3 (r1ToR3 fp2Ops P) A P.z := by
  refine { z_ne := h.z_ne, xy := ?_, yx := ?_, z2 := rfl, t2 := h.t_eq }
  · show P.x + P.y = _
    rw [h.x, h.y]
    ring
  · show P.y - P.x = _
    rw [h.x, h.y]
    ring

/-- Coordinates that stand for a sum: its numerators over the product of its denominators. -/
theorem representsFp2_add {P : PointExtproj Fp2} {c : Fp2} (hc : c ≠ 0)
    (hx : P.x = c * (A.x * B.y + A.y * B.x) * (1 - curveD * A.x * B.x * A.y * B.y))
    (hy : P.y = c * (A.y * B.y + A.x * B.x) * (1 + curveD * A.x * B.x * A.y * B.y))
    (hz : P.z = c * (1 + curveD * A.x * B.x * A.y * B.y) * (1 - curveD * A.x * B.x * A.y * B.y))
    (ht : P.ta * P.tb * P.z = P.x * P.y) : RepresentsFp2 P (A + B) := by
  obtain ⟨hplus, hminus⟩ := den_ne_zero A.on B.on
  refine { z_ne := ?_, x := ?_, y := ?_, t := ht }
  · rw [hz]
    exact mul_ne_zero (mul_ne_zero hc hplus) hminus
  · rw [hx, hz, Point.x_add, addX, div_mul_eq_mul_div, eq_div_iff hplus]
    ring
  · rw [hy, hz, Point.y_add, addY, div_mul_eq_mul_div, eq_div_iff hminus]
    ring

/-- **`eccadd_core`** on the two kinds of precomputed points. -/
theorem IsR2.eccaddCore (hQ : IsR2 Q A z) (hR : IsR3 R B w) :
    RepresentsFp2 (eccaddCore fp2Ops Q R) (A + B) := by
  have hc : 4 * (z * w) * (z * w) ≠ 0 := by
    exact mul_ne_zero (mul_ne_zero four_ne_zero_fp2 (mul_ne_zero hQ.z_ne hR.z_ne))
      (mul_ne_zero hQ.z_ne hR.z_ne)
  apply representsFp2_add hc
  · show (Q.xy * R.xy - Q.yx * R.yx) * (Q.z2 * R.z2 - Q.t2 * R.t2) = _
    rw [hQ.xy, hQ.yx, hQ.z2, hQ.t2, hR.xy, hR.yx, hR.z2, hR.t2]
    ring
  · show (Q.xy * R.xy + Q.yx * R.yx) * (Q.z2 * R.z2 + Q.t2 * R.t2) = _
    rw [hQ.xy, hQ.yx, hQ.z2, hQ.t2, hR.xy, hR.yx, hR.z2, hR.t2]
    ring
  · show (Q.z2 * R.z2 + Q.t2 * R.t2) * (Q.z2 * R.z2 - Q.t2 * R.t2) = _
    rw [hQ.z2, hQ.t2, hR.z2, hR.t2]
    ring
  · show (Q.xy * R.xy + Q.yx * R.yx) * (Q.xy * R.xy - Q.yx * R.yx)
        * ((Q.z2 * R.z2 + Q.t2 * R.t2) * (Q.z2 * R.z2 - Q.t2 * R.t2))
      = (Q.xy * R.xy - Q.yx * R.yx) * (Q.z2 * R.z2 - Q.t2 * R.t2)
        * ((Q.xy * R.xy + Q.yx * R.yx) * (Q.z2 * R.z2 + Q.t2 * R.t2))
    ring

/-- **`eccadd`.** -/
theorem RepresentsFp2.eccadd (hP : RepresentsFp2 P A) (hQ : IsR2 Q B z) :
    RepresentsFp2 (eccadd fp2Ops Q P) (A + B) := by
  rw [add_comm]
  exact hQ.eccaddCore hP.r1ToR3

/-- **`eccmadd`.** -/
theorem RepresentsFp2.eccmadd (hP : RepresentsFp2 P A) (hM : IsPrecompFp2 M B) :
    RepresentsFp2 (eccmadd fp2Ops M P) (A + B) := by
  have ht := hP.t_eq
  have hc : 4 * P.z * P.z ≠ 0 := by
    exact mul_ne_zero (mul_ne_zero four_ne_zero_fp2 hP.z_ne) hP.z_ne
  apply representsFp2_add hc
  · show (M.xy * (P.x + P.y) - M.yx * (P.y - P.x)) * (P.z + P.z - P.ta * P.tb * M.t2) = _
    rw [ht, hM.xy, hM.yx, hM.t2, hP.x, hP.y]
    ring
  · show (M.xy * (P.x + P.y) + M.yx * (P.y - P.x)) * (P.z + P.z + P.ta * P.tb * M.t2) = _
    rw [ht, hM.xy, hM.yx, hM.t2, hP.x, hP.y]
    ring
  · show (P.z + P.z + P.ta * P.tb * M.t2) * (P.z + P.z - P.ta * P.tb * M.t2) = _
    rw [ht, hM.t2]
    ring
  · show (M.xy * (P.x + P.y) + M.yx * (P.y - P.x)) * (M.xy * (P.x + P.y) - M.yx * (P.y - P.x))
        * ((P.z + P.z + P.ta * P.tb * M.t2) * (P.z + P.z - P.ta * P.tb * M.t2))
      = (M.xy * (P.x + P.y) - M.yx * (P.y - P.x)) * (P.z + P.z - P.ta * P.tb * M.t2)
        * ((M.xy * (P.x + P.y) + M.yx * (P.y - P.x)) * (P.z + P.z + P.ta * P.tb * M.t2))
    ring

/-- **`eccdouble`.** On the curve the denominators are those of the sum A + A. -/
theorem RepresentsFp2.eccdouble (hP : RepresentsFp2 P A) :
    RepresentsFp2 (eccdouble fp2Ops P) (A + A) := by
  have hon := A.on
  unfold OnCurve at hon
  have hc : P.z * P.z * (P.z * P.z) ≠ 0 :=
    mul_ne_zero (mul_ne_zero hP.z_ne hP.z_ne) (mul_ne_zero hP.z_ne hP.z_ne)
  -- only here is the curve equation needed: the formulas read y^2 - x^2 for 1 + d x^2 y^2
  have hplus : P.y * P.y - P.x * P.x
      = P.z * P.z * (1 + curveD * A.x * A.x * A.y * A.y) := by
    rw [hP.x, hP.y]
    linear_combination P.z * P.z * hon
  have hminus : P.z * P.z + P.z * P.z - (P.y * P.y - P.x * P.x)
      = P.z * P.z * (1 - curveD * A.x * A.x * A.y * A.y) := by
    rw [hplus]
    ring
  apply representsFp2_add hc
  · show (P.z * P.z + P.z * P.z - (P.y * P.y - P.x * P.x))
        * ((P.x + P.y) * (P.x + P.y) - (P.x * P.x + P.y * P.y)) = _
    rw [hminus, hP.x, hP.y]
    ring
  · show (P.y * P.y - P.x * P.x) * (P.x * P.x + P.y * P.y) = _
    rw [hplus, hP.x, hP.y]
    ring
  · show (P.y * P.y - P.x * P.x) * (P.z * P.z + P.z * P.z - (P.y * P.y - P.x * P.x)) = _
    rw [hminus, hplus]
    ring
  · show ((P.x + P.y) * (P.x + P.y) - (P.x * P.x + P.y * P.y)) * (P.x * P.x + P.y * P.y)
        * ((P.y * P.y - P.x * P.x) * (P.z * P.z + P.z * P.z - (P.y * P.y - P.x * P.x)))
      = (P.z * P.z + P.z * P.z - (P.y * P.y - P.x * P.x))
          * ((P.x + P.y) * (P.x + P.y) - (P.x * P.x + P.y * P.y))
        * ((P.y * P.y - P.x * P.x) * (P.x * P.x + P.y * P.y))
    ring

theorem IsR2.neg (h : IsR2 Q A z) : IsR2 (eccnegExtprojPrecomp fp2Ops Q) (-A) z := by
  refine { z_ne := h.z_ne, xy := ?_, yx := ?_, z2 := h.z2, t2 := ?_ }
  · show Q.yx = (-A.x + A.y) * z
    rw [h.yx]
    ring
  · show Q.xy = (A.y - -A.x) * z
    rw [h.xy]
    ring
  · show -Q.t2 = 2 * curveD * -A.x * A.y * z
    rw [h.t2]
    ring

theorem IsPrecompFp2.neg (h : IsPrecompFp2 M A) : IsPrecompFp2 (eccnegPrecomp fp2Ops M) (-A) := by
  refine { xy := ?_, yx := ?_, t2 := ?_ }
  · show M.yx = -A.x + A.y
    rw [h.yx]
    ring
  · show M.xy = A.y - -A.x
    rw [h.xy]
    ring
  · show -M.t2 = 2 * curveD * -A.x * A.y
    rw [h.t2]
    ring

theorem normFp_ne_zero {x : Fp2} (hx : x ≠ 0) : normFp x ≠ 0 := by
  intro h
  have hone : normFp (x * x⁻¹) = 1 := by
    rw [mul_inv_cancel₀ hx]
    show (1 : Fp) * 1 + 0 * 0 = 1
    ring
  rw [normFp_mul, h, zero_mul] at hone
  exact zero_ne_one hone

/-- The inverse that `eccnorm` computes. -/
theorem inv_eq {x : Fp2} (hx : x ≠ 0) :
    (⟨x.re * (normFp x)⁻¹, -x.im * (normFp x)⁻¹⟩ : Fp2) = x⁻¹ := by
  have hnorm := mul_inv_cancel₀ (normFp_ne_zero hx)
  apply eq_inv_of_mul_eq_one_left
  apply Fp2.ext
  · rw [re_mul]
    show x.re * (normFp x)⁻¹ * x.re - -x.im * (normFp x)⁻¹ * x.im = 1
    unfold normFp at *
    linear_combination hnorm
  · rw [im_mul]
    show x.re * (normFp x)⁻¹ * x.im + -x.im * (normFp x)⁻¹ * x.re = 0
    ring

/-- `eccnorm` divides by Z. -/
theorem RepresentsFp2.affine_eq (h : RepresentsFp2 P A) : affine P = ⟨A.x, A.y⟩ := by
  have haffine : affine P = ⟨P.x * P.z⁻¹, P.y * P.z⁻¹⟩ := by
    rw [← inv_eq h.z_ne]
    rfl
  rw [haffine, h.x, h.y, mul_inv_cancel_right₀ h.z_ne, mul_inv_cancel_right₀ h.z_ne]

end Operations

/-! ## The operations of the builds -/

section Builds

variable {build : Build} {P Q : PointExtproj F2elm} {M : PointPrecomp F2elm} {A B : CurvePoint}

theorem represents_pointSetup (build : Build) {a : PointAffine F2elm}
    (h : a.map F2elm.toFp2 = ⟨A.x, A.y⟩) : Represents (pointSetup build.ops a) A := by
  rw [Represents, (toFp2_hom build).map_pointSetup, h]
  exact representsFp2_pointSetup A

theorem Represents.eccdouble (build : Build) (hP : Represents P A) :
    Represents (Crypto.eccdouble build.ops P) (A + A) := by
  rw [Represents, (toFp2_hom build).map_eccdouble]
  exact RepresentsFp2.eccdouble hP

theorem Represents.eccadd (build : Build) (hP : Represents P A) (hQ : Represents Q B) :
    Represents (Crypto.eccadd build.ops (r1ToR2 build.ops Q) P) (A + B) := by
  rw [Represents, (toFp2_hom build).map_eccadd, (toFp2_hom build).map_r1ToR2]
  exact RepresentsFp2.eccadd hP (RepresentsFp2.r1ToR2 hQ)

theorem Represents.eccaddCore (build : Build) (hP : Represents P A) (hQ : Represents Q B) :
    Represents (Crypto.eccaddCore build.ops (r1ToR2 build.ops P) (r1ToR3 build.ops Q)) (A + B) := by
  rw [Represents, (toFp2_hom build).map_eccaddCore, (toFp2_hom build).map_r1ToR2,
    (toFp2_hom build).map_r1ToR3]
  exact IsR2.eccaddCore (RepresentsFp2.r1ToR2 hP) (RepresentsFp2.r1ToR3 hQ)

theorem Represents.eccmadd (build : Build) (hP : Represents P A) (hM : IsPrecomp M B) :
    Represents (Crypto.eccmadd build.ops M P) (A + B) := by
  rw [Represents, (toFp2_hom build).map_eccmadd]
  exact RepresentsFp2.eccmadd hP hM

theorem Represents.eccadd_neg (build : Build) (hP : Represents P A) (hQ : Represents Q B) :
    Represents (Crypto.eccadd build.ops (eccnegExtprojPrecomp build.ops (r1ToR2 build.ops Q)) P)
      (A - B) := by
  rw [Represents, (toFp2_hom build).map_eccadd, (toFp2_hom build).map_eccnegExtprojPrecomp,
    (toFp2_hom build).map_r1ToR2, sub_eq_add_neg]
  exact RepresentsFp2.eccadd hP (RepresentsFp2.r1ToR2 hQ).neg

theorem Represents.eccaddCore_neg (build : Build) (hP : Represents P A) (hQ : Represents Q B) :
    Represents (Crypto.eccaddCore build.ops (eccnegExtprojPrecomp build.ops (r1ToR2 build.ops Q))
      (r1ToR3 build.ops P)) (A - B) := by
  rw [Represents, (toFp2_hom build).map_eccaddCore, (toFp2_hom build).map_eccnegExtprojPrecomp,
    (toFp2_hom build).map_r1ToR2, (toFp2_hom build).map_r1ToR3, sub_eq_neg_add]
  exact IsR2.eccaddCore (RepresentsFp2.r1ToR2 hQ).neg (RepresentsFp2.r1ToR3 hP)

theorem Represents.eccmadd_neg (build : Build) (hP : Represents P A) (hM : IsPrecomp M B) :
    Represents (Crypto.eccmadd build.ops (eccnegPrecomp build.ops M) P) (A - B) := by
  rw [Represents, (toFp2_hom build).map_eccmadd, (toFp2_hom build).map_eccnegPrecomp,
    sub_eq_add_neg]
  exact RepresentsFp2.eccmadd hP (IsPrecompFp2.neg hM)

theorem Represents.eccnorm (build : Build) (hP : Represents P A) :
    Crypto.eccnorm build P = reduced A := by
  rw [eccnorm_eq, RepresentsFp2.affine_eq hP]
  rfl

/-- **The point operations compute in the group of the curve**, in both builds and on all
points: no Z becomes 0, and `eccnorm` gives the affine coordinates below p. -/
theorem point_operations (build : Build) {a : PointAffine F2elm}
    (ha : a.map F2elm.toFp2 = ⟨A.x, A.y⟩) (hP : Represents P A) (hQ : Represents Q B)
    (hM : IsPrecomp M B) :
    Represents (pointSetup build.ops a) A ∧
    Represents (Crypto.eccdouble build.ops P) (A + A) ∧
    Represents (Crypto.eccadd build.ops (r1ToR2 build.ops Q) P) (A + B) ∧
    Represents (Crypto.eccaddCore build.ops (r1ToR2 build.ops P) (r1ToR3 build.ops Q)) (A + B) ∧
    Represents (Crypto.eccmadd build.ops M P) (A + B) ∧
    Represents (Crypto.eccadd build.ops (eccnegExtprojPrecomp build.ops (r1ToR2 build.ops Q)) P)
      (A - B) ∧
    Represents (Crypto.eccaddCore build.ops (eccnegExtprojPrecomp build.ops (r1ToR2 build.ops Q))
      (r1ToR3 build.ops P)) (A - B) ∧
    Represents (Crypto.eccmadd build.ops (eccnegPrecomp build.ops M) P) (A - B) ∧
    Crypto.eccnorm build P = reduced A :=
  ⟨represents_pointSetup build ha, hP.eccdouble build, hP.eccadd build hQ,
    hP.eccaddCore build hQ, hP.eccmadd build hM, hP.eccadd_neg build hQ,
    hP.eccaddCore_neg build hQ, hP.eccmadd_neg build hM, hP.eccnorm build⟩

/-- The sum of the points of order 4 and 2, added as a precomputed affine point. -/
theorem point_operations_orderFour :
    let P := pointSetup Build.portable.ops (reduced orderFour)
    let M : PointPrecomp F2elm :=
      ⟨.ofFp2 (0 + -1), .ofFp2 (-1 - 0), .ofFp2 (2 * curveD * 0 * -1)⟩
    Represents (Crypto.eccmadd Build.portable.ops M P) (orderFour + Point.order2) ∧
    Represents (Crypto.eccmadd Build.portable.ops (eccnegPrecomp Build.portable.ops M) P)
      (orderFour - Point.order2) := by
  intro P M
  have hP : Represents P orderFour := represents_pointSetup .portable (map_reduced orderFour)
  have hM : IsPrecomp M Point.order2 :=
    { xy := toFp2_ofFp2 _, yx := toFp2_ofFp2 _, t2 := toFp2_ofFp2 _ }
  have hQ := represents_pointSetup .portable (map_reduced Point.order2)
  have h := point_operations .portable (map_reduced orderFour) hP hQ hM
  exact ⟨h.2.2.2.2.1, h.2.2.2.2.2.2.2.1⟩

end Builds

end ZkQuorum.Crypto
