import ZkQuorum.Crypto.Interleave

/-!
# The endomorphisms (crypto/src/riscv_fourq_verify.c)

`ecc_psi` and `ecc_phi` go to a second curve (`ecc_tau`), map it to itself (`ecc_delpsidel`,
`ecc_delphidel`) and come back (`ecc_tau_dual`). The second curve has the same shape, with the
parameter `isogenousD` in place of d. Each stage keeps the projective curve equation, so the
maps can be composed without a division (**`endomorphisms_on_curve`**).

The coefficients are opaque in the identities; what is needed of the constants of the source is
decided once for each stage.
-/

namespace ZkQuorum.Crypto

open Edwards

/-! ## The stages as identities -/

section Identities

variable {K : Type} [Field K] {d D x y z : K}

/-- `ecc_tau`. -/
theorem onProjective_tau {c : K} (hD : D * (d + 1) = -1) (hc : c * c = -(4 * (d + 1)))
    (h : OnProjective d x y z) : OnProjective D (x * y * (y * y - x * x) * c)
      ((z * z + z * z - (y * y - x * x)) * (x * x + y * y))
      ((x * x + y * y) * (y * y - x * x)) := by
  unfold OnProjective at *
  linear_combination (-4 * (x ^ 2 + y ^ 2) ^ 2 * (y ^ 2 - x ^ 2) ^ 4) * h
    - (x ^ 2 + y ^ 2) ^ 2 * (y ^ 2 - x ^ 2) ^ 2 * x ^ 2 * y ^ 2
      * ((y ^ 2 - x ^ 2) ^ 2 + D * (2 * z ^ 2 - (y ^ 2 - x ^ 2)) ^ 2) * hc
    + 4 * (x ^ 2 + y ^ 2) ^ 2 * (y ^ 2 - x ^ 2) ^ 2 * x ^ 2 * y ^ 2
      * (2 * z ^ 2 - (y ^ 2 - x ^ 2)) ^ 2 * hD

/-- `ecc_tau_dual`. -/
theorem onProjective_tauDual {c : K} (hD : D * (d + 1) = -1) (hc : c * c = 4 * D)
    (h : OnProjective D x y z) : OnProjective d (x * y * c * (x * x + y * y))
      ((z * z + z * z - (y * y - x * x)) * (y * y - x * x))
      ((z * z + z * z - (y * y - x * x)) * (x * x + y * y)) := by
  unfold OnProjective at *
  linear_combination ((2 * z ^ 2 - (y ^ 2 - x ^ 2)) ^ 2 * (x ^ 2 + y ^ 2) ^ 2 * x ^ 2 * y ^ 2)
    * (16 * h - (4 * x ^ 2 * y ^ 2 + (1 + d) * (y ^ 2 - x ^ 2) ^ 2) * hc
      - 4 * (y ^ 2 - x ^ 2) ^ 2 * hD)

/-- `ecc_delpsidel` after its conjugations: `b`, `e` and `a` are its three quadratic forms. -/
theorem onProjective_delpsidel (c1 c2 c3 a b e : K)
    (hdiff : e ^ 2 - a ^ 2 = 4 * c3 * x ^ 2 * z ^ 2)
    (hb : b * y ^ 2 = c2 * z ^ 2 * (z ^ 2 + x ^ 2))
    (hsum : 4 * c2 * c3 * b * (z ^ 2 + x ^ 2) = c1 ^ 2 * (a ^ 2 + D * e ^ 2)) :
    OnProjective D (x * (z * z) * -a * c1) (e * (b * y)) (b * y * -a) := by
  unfold OnProjective at *
  linear_combination (a ^ 2 * b ^ 2 * y ^ 2) * (b ^ 2 * y ^ 2 * hdiff
    + 4 * c3 * x ^ 2 * z ^ 2 * b * hb + x ^ 2 * z ^ 4 * hsum)

/-- `ecc_delphidel` before its conjugations: `a`, `q`, `r` and `s` are its four forms. -/
theorem onProjective_delphidel {D' c5 κ : K} (a q r s : K)
    (hsum : y ^ 2 * r ^ 2 + D' * c5 ^ 2 * z ^ 2 * s ^ 2 = κ * (z ^ 2 + D * y ^ 2) * q ^ 2)
    (hdiff : c5 ^ 2 * z ^ 2 * s ^ 2 - y ^ 2 * r ^ 2 = κ * (y ^ 2 - z ^ 2) * a ^ 2)
    (h : OnProjective D x y z) :
    OnProjective D' (x * a * (r * y)) (s * c5 * z * (q * z)) (q * z * (r * y)) := by
  unfold OnProjective at *
  linear_combination (y ^ 2 * z ^ 2 * q ^ 2 * r ^ 2) * (κ * q ^ 2 * a ^ 2 * h
    + z ^ 2 * q ^ 2 * hdiff - x ^ 2 * a ^ 2 * hsum)

end Identities

/-! ## The constants -/

/-- The parameter of the second curve. -/
def isogenousD : Fp2 := ⟨0xe3fffffffffffffebd, 0x67215f29025e17ac1548d2a330fb25f9⟩

/-- The Frobenius map, `fpneg1271` of the second component. -/
def conjHom : Fp2 →+* Fp2 where
  toFun x := ⟨x.re, -x.im⟩
  map_zero' := Fp2.ext rfl neg_zero
  map_one' := Fp2.ext rfl neg_zero
  map_add' x y := Fp2.ext rfl (neg_add x.im y.im)
  map_mul' x y := by
    apply Fp2.ext
    · rw [re_mul, re_mul]
      ring
    · rw [im_mul, im_mul]
      ring

theorem conjHom_conjHom (x : Fp2) : conjHom (conjHom x) = x := Fp2.ext rfl (neg_neg x.im)

theorem tau_constants : isogenousD * (curveD + 1) = -1 ∧
    ctau1.toFp2 * ctau1.toFp2 = -(4 * (curveD + 1)) ∧
    ctaudual1.toFp2 * ctaudual1.toFp2 = 4 * isogenousD := by
  decide +kernel

theorem psi_constants :
    let c1 := cpsi1.toFp2
    let c2 := cpsi2.toFp2
    let c3 := cpsi3.toFp2
    cpsi4.toFp2 = -c3 ∧ c2 * conjHom isogenousD = -1 ∧
      4 * c2 * c3 = c1 ^ 2 * (1 + isogenousD) ∧
      4 * c2 * c3 * (1 + c2) = 2 * c3 * c1 ^ 2 * (isogenousD - 1) ∧
      4 * c2 * c3 * c2 = c1 ^ 2 * c3 ^ 2 * (1 + isogenousD) := by
  decide +kernel

/-- The coefficients of `y ^ 2 * r ^ 2 + D' * c5 ^ 2 * z ^ 2 * s ^ 2`, from `y ^ 10` on. -/
theorem phi_constants_sum :
    let e := conjHom isogenousD * cphi5.toFp2 ^ 2
    let c6 := cphi6.toFp2
    let c7 := cphi7.toFp2
    let c8 := cphi8.toFp2
    let c9 := cphi9.toFp2
    let q0 := cphi4.toFp2 ^ 2
    let q1 := 2 * cphi4.toFp2 - cphi3.toFp2 ^ 2
    let κ := -(curveD + 1)
    1 = κ * isogenousD ∧
      2 * c8 + e = κ * (1 + 2 * isogenousD * q1) ∧
      c8 ^ 2 + 2 * c9 + 2 * e * c6 = κ * (2 * q1 + isogenousD * (q1 ^ 2 + 2 * q0)) ∧
      2 * c8 * c9 + e * (c6 ^ 2 + 2 * c7) = κ * (q1 ^ 2 + 2 * q0 + 2 * isogenousD * q1 * q0) ∧
      c9 ^ 2 + 2 * e * c6 * c7 = κ * (2 * q1 * q0 + isogenousD * q0 ^ 2) ∧
      e * c7 ^ 2 = κ * q0 ^ 2 := by
  decide +kernel

/-- The coefficients of `c5 ^ 2 * z ^ 2 * s ^ 2 - y ^ 2 * r ^ 2`, from `y ^ 10` on. -/
theorem phi_constants_diff :
    let e := cphi5.toFp2 ^ 2
    let c6 := cphi6.toFp2
    let c7 := cphi7.toFp2
    let c8 := cphi8.toFp2
    let c9 := cphi9.toFp2
    let a0 := cphi2.toFp2 ^ 2
    let a1 := cphi1.toFp2 ^ 2 - 2 * cphi2.toFp2
    let κ := -(curveD + 1) * cphi0.toFp2 ^ 2
    (-1 : Fp2) = κ ∧
      e - 2 * c8 = κ * (-2 * a1 - 1) ∧
      2 * e * c6 - (c8 ^ 2 + 2 * c9) = κ * (a1 ^ 2 + 2 * a0 + 2 * a1) ∧
      e * (c6 ^ 2 + 2 * c7) - 2 * c8 * c9 = κ * (-2 * a1 * a0 - a1 ^ 2 - 2 * a0) ∧
      2 * e * c6 * c7 - c9 ^ 2 = κ * (a0 ^ 2 + 2 * a1 * a0) ∧
      e * c7 ^ 2 = κ * (-a0 ^ 2) := by
  decide +kernel

/-! ## The stages of the source -/

section Stages

variable {P : PointExtproj Fp2}

theorem eccTau_on (h : OnProjective curveD P.x P.y P.z) :
    let R := eccTau fp2Ops P
    OnProjective isogenousD R.x R.y R.z :=
  onProjective_tau tau_constants.1 tau_constants.2.1 h

theorem eccTauDual_on (h : OnProjective isogenousD P.x P.y P.z) :
    let R := eccTauDual fp2Ops P
    OnProjective curveD R.x R.y R.z :=
  onProjective_tauDual tau_constants.1 tau_constants.2.2 h

theorem eccTauDual_t (P : PointExtproj Fp2) :
    let R := eccTauDual fp2Ops P
    R.ta * R.tb * R.z = R.x * R.y := by
  show (P.y * P.y - P.x * P.x) * (P.x * P.y * ctaudual1.toFp2)
      * ((P.z * P.z + P.z * P.z - (P.y * P.y - P.x * P.x)) * (P.x * P.x + P.y * P.y))
    = P.x * P.y * ctaudual1.toFp2 * (P.x * P.x + P.y * P.y)
      * ((P.z * P.z + P.z * P.z - (P.y * P.y - P.x * P.x)) * (P.y * P.y - P.x * P.x))
  ring

theorem eccDelpsidel_on (h : OnProjective isogenousD P.x P.y P.z) :
    let R := eccDelpsidel fp2Ops P
    OnProjective isogenousD R.x R.y R.z := by
  obtain ⟨hc4, hc2, hlead, hmid, hlast⟩ := psi_constants
  have hconj := h.map conjHom
  unfold OnProjective at hconj
  let x := conjHom P.x
  let y := conjHom P.y
  let z := conjHom P.z
  refine onProjective_delpsidel (x := x) (y := y) (z := z) cpsi1.toFp2 cpsi2.toFp2 cpsi3.toFp2
    (x * x + z * z * cpsi4.toFp2) (x * x + z * z * cpsi2.toFp2) (x * x + z * z * cpsi3.toFp2)
    ?_ ?_ ?_
  · rw [hc4]
    ring
  · linear_combination cpsi2.toFp2 * hconj + x ^ 2 * y ^ 2 * hc2
  · rw [hc4]
    linear_combination x ^ 4 * hlead + x ^ 2 * z ^ 2 * hmid + z ^ 4 * hlast

theorem eccDelphidel_on (h : OnProjective isogenousD P.x P.y P.z) :
    let R := eccDelphidel fp2Ops P
    OnProjective isogenousD R.x R.y R.z := by
  obtain ⟨p5, p4, p3, p2, p1, p0⟩ := phi_constants_sum
  obtain ⟨m5, m4, m3, m2, m1, m0⟩ := phi_constants_diff
  let x := P.x
  let y := P.y
  let z := P.z
  let a := (y * z * cphi1.toFp2 - (y * y + z * z * cphi2.toFp2))
    * (y * z * cphi1.toFp2 + (y * y + z * z * cphi2.toFp2)) * cphi0.toFp2
  let q := (z * z * cphi4.toFp2 + y * y + y * z * cphi3.toFp2)
    * (z * z * cphi4.toFp2 + y * y - y * z * cphi3.toFp2)
  let r := y * z * (y * z) * cphi8.toFp2 + y * y * (y * y) + z * z * (z * z) * cphi9.toFp2
  let s := y * y * (y * y) + (y * z * (y * z) * cphi6.toFp2 + z * z * (z * z) * cphi7.toFp2)
  have hsum : y ^ 2 * r ^ 2 + conjHom isogenousD * cphi5.toFp2 ^ 2 * z ^ 2 * s ^ 2
      = -(curveD + 1) * (z ^ 2 + isogenousD * y ^ 2) * q ^ 2 := by
    linear_combination y ^ 10 * p5 + y ^ 8 * z ^ 2 * p4 + y ^ 6 * z ^ 4 * p3 + y ^ 4 * z ^ 6 * p2
      + y ^ 2 * z ^ 8 * p1 + z ^ 10 * p0
  have hdiff : cphi5.toFp2 ^ 2 * z ^ 2 * s ^ 2 - y ^ 2 * r ^ 2
      = -(curveD + 1) * (y ^ 2 - z ^ 2) * a ^ 2 := by
    linear_combination y ^ 10 * m5 + y ^ 8 * z ^ 2 * m4 + y ^ 6 * z ^ 4 * m3 + y ^ 4 * z ^ 6 * m2
      + y ^ 2 * z ^ 8 * m1 + z ^ 10 * m0
  have hmap := (onProjective_delphidel a q r s hsum hdiff h).map conjHom
  rw [conjHom_conjHom] at hmap
  -- the source multiplies the factors of q in turn
  have hq : (z * z * cphi4.toFp2 + y * y + y * z * cphi3.toFp2) * z
      * (z * z * cphi4.toFp2 + y * y - y * z * cphi3.toFp2) = q * z := by
    ring
  show OnProjective isogenousD (conjHom (x * a * (r * y)))
    (conjHom (s * cphi5.toFp2 * z * ((z * z * cphi4.toFp2 + y * y + y * z * cphi3.toFp2) * z
      * (z * z * cphi4.toFp2 + y * y - y * z * cphi3.toFp2))))
    (conjHom ((z * z * cphi4.toFp2 + y * y + y * z * cphi3.toFp2) * z
      * (z * z * cphi4.toFp2 + y * y - y * z * cphi3.toFp2) * (r * y)))
  rw [hq]
  exact hmap

/-- The five coordinates are those of a point of the curve, where Z is not 0. -/
structure ExtendedOnCurve (P : PointExtproj Fp2) : Prop where
  on : (P.y ^ 2 - P.x ^ 2) * P.z ^ 2 = P.z ^ 4 + curveD * P.x ^ 2 * P.y ^ 2
  t : P.ta * P.tb * P.z = P.x * P.y

theorem eccPsi_extended (h : OnProjective curveD P.x P.y P.z) : ExtendedOnCurve (eccPsi fp2Ops P) :=
  { on := eccTauDual_on (eccDelpsidel_on (eccTau_on h)), t := eccTauDual_t _ }

theorem eccPhi_extended (h : OnProjective curveD P.x P.y P.z) : ExtendedOnCurve (eccPhi fp2Ops P) :=
  { on := eccTauDual_on (eccDelphidel_on (eccTau_on h)), t := eccTauDual_t _ }

/-- The point that extended coordinates stand for. -/
theorem ExtendedOnCurve.represents (h : ExtendedOnCurve P) (hz : P.z ≠ 0) :
    RepresentsFp2 P ⟨P.x / P.z, P.y / P.z, onCurve_div hz h.on⟩ where
  z_ne := hz
  x := (div_mul_cancel₀ P.x hz).symm
  y := (div_mul_cancel₀ P.y hz).symm
  t := h.t

end Stages

/-! ## The builds -/

/-- The table that `ecc_precomp_double` builds is of the odd multiples of a point of the curve. -/
def TableOfCurvePoint (build : Build) (P : PointExtproj F2elm) : Prop :=
  ∃ A : CurvePoint, Represents P A ∧ ∀ i : Fin 4, ∃ z,
    IsR2 (((eccPrecompDouble build.ops P).get i).map F2elm.toFp2) ((2 * i.val + 1) • A) z

/-- The curve equation and T, and what follows for the table. -/
def StaysOnCurve (build : Build) (P : PointExtproj F2elm) : Prop :=
  ExtendedOnCurve (P.map F2elm.toFp2) ∧ (P.z.toFp2 ≠ 0 → TableOfCurvePoint build P)

theorem staysOnCurve (build : Build) {P : PointExtproj F2elm}
    (h : ExtendedOnCurve (P.map F2elm.toFp2)) : StaysOnCurve build P := by
  refine ⟨h, fun hz => ⟨_, h.represents hz, fun i => ?_⟩⟩
  have htable := (toFp2_hom build).map_eccPrecompDouble P
  have hget : ((eccPrecompDouble build.ops P).get i).map F2elm.toFp2
      = (eccPrecompDouble fp2Ops (P.map F2elm.toFp2)).get i := by
    rw [← htable]
    exact (Vector.getElem_map _ _).symm
  rw [hget]
  exact curveInterpretation.eccPrecompDouble (h.represents hz) i

/-- **The endomorphisms stay on the curve**, in both builds. -/
theorem endomorphisms_on_curve (build : Build) {a : PointAffine F2elm}
    (ha : OnCurve curveD a.x.toFp2 a.y.toFp2) :
    let P := pointSetup build.ops a
    StaysOnCurve build (eccPsi build.ops P) ∧ StaysOnCurve build (eccPhi build.ops P) ∧
      StaysOnCurve build (eccPsi build.ops (eccPhi build.ops P)) := by
  intro P
  have hom := toFp2_hom build
  have hP : OnProjective curveD (P.map F2elm.toFp2).x (P.map F2elm.toFp2).y
      (P.map F2elm.toFp2).z := by
    have hone : (P.map F2elm.toFp2).z = 1 := toFp2_one
    rw [hone]
    exact onProjective_one ha
  have hphi := eccPhi_extended hP
  refine ⟨staysOnCurve build ?_, staysOnCurve build ?_, staysOnCurve build ?_⟩
  · rw [hom.map_eccPsi]
    exact eccPsi_extended hP
  · rw [hom.map_eccPhi]
    exact hphi
  · rw [hom.map_eccPsi, hom.map_eccPhi]
    exact eccPsi_extended hphi.on

/-- The images of the first point of the table. -/
theorem endomorphisms_on_curve_base : StaysOnCurve .portable
    (eccPsi Build.portable.ops (pointSetup Build.portable.ops (reduced (basePoint 0)))) := by
  have hbase := map_reduced (basePoint 0)
  rw [PointAffine.map, PointAffine.mk.injEq] at hbase
  obtain ⟨hx, hy⟩ := hbase
  have ha : OnCurve curveD (reduced (basePoint 0)).x.toFp2 (reduced (basePoint 0)).y.toFp2 := by
    rw [hx, hy]
    exact (basePoint 0).on
  exact (endomorphisms_on_curve .portable ha).1

end ZkQuorum.Crypto
