import ZkQuorum.Crypto.Decompose
import ZkQuorum.Crypto.Images
import Mathlib.Tactic.ComputeDegree

/-!
# The endomorphisms on the multiples of G (crypto/src/riscv_fourq_verify.c)

`ecc_phi` and `ecc_psi` add the first points of blocks 1 and 2 of the table when G is added
(`IsImage.add_base`): the two differences of `ZkQuorum.Crypto.Fractions` vanish on the curve of s
and p, since they do over more values of s than their weights.

- **`represents_eccPhi`**, **`represents_eccPsi`**: the image of n G is n times that first point.
- **`basePoint_eq`**: the first points of the blocks are the multiples of G by the residues of the
  decomposition.
-/

namespace ZkQuorum.Crypto

open Edwards QuarticCurve Polynomial

/-! ## The differences vanish -/

namespace Residue

/-- The field element that a pair stands for. -/
def toFp2 (x : Residue) : Fp2 := ofPair x

theorem respects_toFp2 : Respects toFp2 :=
  ⟨ofPair_hom.map_add, ofPair_hom.map_sub, ofPair_hom.map_mul⟩

theorem toFp2_const (a : F2elm) : (const a).toFp2 = a.toFp2 := ofPair_hom.map_const a

theorem toFp2_zero : (0 : Residue).toFp2 = 0 := Fp2.ext Nat.cast_zero Nat.cast_zero

theorem toFp2_one : (1 : Residue).toFp2 = 1 := Fp2.ext Nat.cast_one Nat.cast_zero

theorem toFp2_sample_injective {n : Nat} (hn : n < p1271) :
    Function.Injective fun i : Fin (n + 1) => (sample i).toFp2 := by
  intro i j h
  have hre : ((i.val : Nat) : Fp) = (j.val : Nat) := congrArg (·.re) h
  have hmod := (ZMod.natCast_eq_natCast_iff' _ _ _).mp hre
  rw [Nat.mod_eq_of_lt (by omega), Nat.mod_eq_of_lt (by omega)] at hmod
  exact Fin.ext hmod

end Residue

/-- The right-hand side of the equation of the conjugates of s and p. -/
noncomputable def conjQuartic : Quartic Fp2 where
  poly := (1 + Polynomial.C (conjHom curveD) * X ^ 2) ^ 2 + Polynomial.C 4 * X ^ 2
  degree_le := by compute_degree

theorem eval_conjQuartic (s : Fp2) :
    conjQuartic.poly.eval s = quartic (conjConst F2elm.toFp2) s := by
  have hone : conjConst F2elm.toFp2 .one = 1 := by
    rw [conjConst_toFp2]
    exact (congrArg conjHom toFp2_one).trans (map_one conjHom)
  have hd : conjConst F2elm.toFp2 parameterD = conjHom curveD := by
    rw [conjConst_toFp2]
  simp only [conjQuartic, quartic, hone, hd, eval_add, eval_mul, eval_pow, eval_one, eval_C, eval_X]
  ring

/-- The differences of a formula vanish over more values of s than their weights. -/
def Formula.Tested (F : Formula) (j : Fin 4) : Prop :=
  ∃ n < p1271, ((F.differenceX j).weight ≤ n ∧ (F.differenceY j).weight ≤ n) ∧ F.Checked j n

theorem tested_phi : phiFormula.Tested 1 :=
  ⟨160, by norm_num [p1271], weight_phi, differences_phi⟩

theorem tested_psi : psiFormula.Tested 2 :=
  ⟨80, by norm_num [p1271], weight_psi, differences_psi⟩

/-- An expression that is 0 over enough residues is 0 on the curve of s and p. -/
theorem expression_eq_zero (e : Expression F2elm) {n : Nat} (hn : n < p1271) (hw : e.weight ≤ n)
    (h : ∀ i : Fin (n + 1), Over.eval (quartic (conjConst Residue.const) (Residue.sample i)) e
      Residue.const (Residue.sample i) = 0)
    {s p : Fp2} (hp : p * p = quartic (conjConst F2elm.toFp2) s) : e.run F2elm.toFp2 s p = 0 := by
  have hconst : (fun a => (Residue.const a).toFp2) = F2elm.toFp2 := funext Residue.toFp2_const
  rw [← eval_conjQuartic] at hp
  refine e.eq_zero hw (Residue.toFp2_sample_injective hn) (fun i => ?_) hp
  have hquartic : conjQuartic.poly.eval (Residue.sample i).toFp2
      = (quartic (conjConst Residue.const) (Residue.sample i)).toFp2 := by
    rw [eval_conjQuartic, Natural.map_quartic Residue.respects_toFp2]
    exact congrArg (fun c => quartic c (Residue.sample i).toFp2)
      (funext fun a => (Residue.toFp2_const a.conj).symm)
  rw [hquartic, ← hconst, ← Over.map_eval Residue.respects_toFp2 Residue.toFp2_zero
    Residue.toFp2_one, h i]
  exact Over.ext Residue.toFp2_zero Residue.toFp2_zero

theorem Formula.Tested.differences {F : Formula} {j : Fin 4} (h : F.Tested j) {s p : Fp2}
    (hp : p * p = quartic (conjConst F2elm.toFp2) s) :
    (F.differenceX j).run F2elm.toFp2 s p = 0 ∧ (F.differenceY j).run F2elm.toFp2 s p = 0 := by
  obtain ⟨n, hn, ⟨hx, hy⟩, hchecked⟩ := h
  exact ⟨expression_eq_zero _ hn hx (fun i => (hchecked i).1) hp,
    expression_eq_zero _ hn hy (fun i => (hchecked i).2) hp⟩

/-! ## Sums -/

section Sums

variable {A B : CurvePoint}

/-- The equation of s and p. -/
theorem jacobi_equation (A : CurvePoint) : (A.x * A.x + A.y * A.y) * (A.x * A.x + A.y * A.y)
    = quartic F2elm.toFp2 (A.x * A.y) := by
  have hon := A.on
  have hone := toFp2_one
  have hd : F2elm.toFp2 parameterD = curveD := rfl
  unfold OnCurve at hon
  simp only [quartic, hone, hd]
  linear_combination (A.y * A.y - A.x * A.x + 1 + curveD * (A.x * A.x) * (A.y * A.y)) * hon

theorem jacobi_plus_of (A B : CurvePoint) :
    (Jacobi.plus F2elm.toFp2 (A.x * A.y) (A.x * A.x + A.y * A.y) ⟨B.x, B.y⟩).Of
      ⟨(A + B).x, (A + B).y⟩ := by
  obtain ⟨hplus, hminus⟩ := den_ne_zero A.on B.on
  have hA := A.on
  have hB := B.on
  unfold OnCurve at hA hB
  have hone := toFp2_one
  have hd : F2elm.toFp2 parameterD = curveD := rfl
  have hx : (A + B).x * (1 + curveD * A.x * B.x * A.y * B.y) = A.x * B.y + A.y * B.x :=
    div_mul_cancel₀ _ hplus
  have hy : (A + B).y * (1 - curveD * A.x * B.x * A.y * B.y) = A.y * B.y + A.x * B.x :=
    div_mul_cancel₀ _ hminus
  generalize (A + B).x = X at hx ⊢
  generalize (A + B).y = Y at hy ⊢
  -- the denominator of the sum is the product of the two of the addition law
  have he : 1 - curveD * (A.x * A.y * (B.x * B.y)) * (curveD * (A.x * A.y * (B.x * B.y)))
      = (1 + curveD * A.x * B.x * A.y * B.y) * (1 - curveD * A.x * B.x * A.y * B.y) := by
    ring
  refine { e_ne := ?_, s := ?_, p := ?_ }
  · simp only [Jacobi.plus, hone, hd]
    rw [he]
    exact mul_ne_zero hplus hminus
  · simp only [Jacobi.plus, hone, hd]
    rw [he]
    linear_combination -Y * (1 - curveD * A.x * B.x * A.y * B.y) * hx
      - (A.x * B.y + A.y * B.x) * hy
  · simp only [Jacobi.plus, hone, hd]
    rw [he]
    -- here, and only here, both points have to be on the curve
    let e := curveD * A.x * B.x * A.y * B.y
    let a := A.x * B.y + A.y * B.x
    let b := A.y * B.y + A.x * B.x
    let u := 1 + curveD * (B.x * B.x) * (B.y * B.y)
    linear_combination -(1 - e) ^ 2 * (X * (1 + e) + a) * hx - (1 + e) ^ 2 * (Y * (1 - e) + b) * hy
      - 2 * e * u * hA - 2 * e * (A.y * A.y - A.x * A.x) * hB

theorem Fractions.Of.plus {F : Fractions Fp2} (h : F.Of ⟨A.x, A.y⟩) (B : CurvePoint) :
    (F.plus F2elm.toFp2 ⟨B.x, B.y⟩).Of ⟨(A + B).x, (A + B).y⟩ := by
  obtain ⟨hplus, hminus⟩ := den_ne_zero A.on B.on
  have hd : F2elm.toFp2 parameterD = curveD := rfl
  have hx : (A + B).x * (1 + curveD * A.x * B.x * A.y * B.y) = A.x * B.y + A.y * B.x :=
    div_mul_cancel₀ _ hplus
  have hy : (A + B).y * (1 - curveD * A.x * B.x * A.y * B.y) = A.y * B.y + A.x * B.x :=
    div_mul_cancel₀ _ hminus
  -- the denominators are `xd * yd` times those of the addition law
  have hxd : (F.plus F2elm.toFp2 ⟨B.x, B.y⟩).xd
      = F.xd * F.yd * (1 + curveD * A.x * B.x * A.y * B.y) := by
    simp only [Fractions.plus, h.xn, h.yn, hd]
    ring
  have hyd : (F.plus F2elm.toFp2 ⟨B.x, B.y⟩).yd
      = F.xd * F.yd * (1 - curveD * A.x * B.x * A.y * B.y) := by
    simp only [Fractions.plus, h.xn, h.yn, hd]
    ring
  have hz : F.xd * F.yd ≠ 0 := mul_ne_zero h.xd_ne h.yd_ne
  refine { xd_ne := ?_, yd_ne := ?_, xn := ?_, yn := ?_ }
  · rw [hxd]
    exact mul_ne_zero hz hplus
  · rw [hyd]
    exact mul_ne_zero hz hminus
  · rw [hxd]
    simp only [Fractions.plus, h.xn, h.yn]
    linear_combination -(F.xd * F.yd) * hx
  · rw [hyd]
    simp only [Fractions.plus, h.xn, h.yn]
    linear_combination -(F.xd * F.yd) * hy

end Sums

/-! ## The images of the multiples -/

section Images

variable {endo : PointExtproj Fp2 → PointExtproj Fp2} {F : Formula} {A B B' : CurvePoint}
  {j : Fin 4}

theorem tablePoint_toFp2 (j : Fin 4) :
    tablePoint F2elm.toFp2 j = ⟨(basePoint j).x, (basePoint j).y⟩ := rfl

/-- **The image of A + G is that of A plus the first point of the block.** -/
theorem IsImage.add_base (hF : F.Tested j) (h : IsImage endo F A B)
    (h' : IsImage endo F (A + basePoint 0) B') : B' = B + basePoint j := by
  let J : Jacobi Fp2 := ⟨A.x * A.y, A.x * A.x + A.y * A.y, 1⟩
  have hJ : J.Of ⟨A.x, A.y⟩ := ⟨one_ne_zero, (mul_one _).symm, by rw [mul_one, mul_one]⟩
  -- the point of the equation is the pair of the conjugates
  have hequation := congrArg conjHom (jacobi_equation A)
  rw [map_mul, Natural.map_quartic respects_conjHom, ← conjConst_toFp2] at hequation
  obtain ⟨hx, hy⟩ := hF.differences hequation
  have hleft : (F.imageOfSum F2elm.toFp2 (conjHom J.s) (conjHom J.p)).Of ⟨B'.x, B'.y⟩ := by
    have hplus := h'.fractions _ (jacobi_plus_of A (basePoint 0))
    rw [Natural.map_jacobi_plus respects_conjHom, ← conjConst_toFp2, ← tablePoint_toFp2,
      Natural.map_tablePoint respects_conjHom, ← conjConst_toFp2] at hplus
    exact hplus
  have hright : (F.sumOfImages j F2elm.toFp2 (conjHom J.s) (conjHom J.p)).Of
      ⟨(B + basePoint j).x, (B + basePoint j).y⟩ := by
    have hone : F2elm.toFp2 .one = conjHom J.e := toFp2_one.trans (map_one conjHom).symm
    rw [Formula.sumOfImages, tablePoint_toFp2, hone]
    exact (h.fractions J hJ).plus (basePoint j)
  apply Point.ext
  · apply mul_right_cancel₀ (mul_ne_zero hleft.xd_ne hright.xd_ne)
    have hcross := sub_eq_zero.mp hx
    rw [hleft.xn, hright.xn] at hcross
    linear_combination hcross
  · apply mul_right_cancel₀ (mul_ne_zero hleft.yd_ne hright.yd_ne)
    have hcross := sub_eq_zero.mp hy
    rw [hleft.yn, hright.yn] at hcross
    linear_combination hcross

/-- The image of 0. -/
def Formula.FixesZero (F : Formula) : Prop :=
  let R := F.run F2elm.toFp2 ⟨0, 1, 1⟩
  R.xn = 0 ∧ R.yn = R.yd

theorem fixesZero_phi : phiFormula.FixesZero := by
  unfold Formula.FixesZero
  decide +kernel

theorem fixesZero_psi : psiFormula.FixesZero := by
  unfold Formula.FixesZero
  decide +kernel

theorem IsImage.eq_zero (hF : F.FixesZero) (h : IsImage endo F 0 B) : B = 0 := by
  let J : Jacobi Fp2 := ⟨0, 1, 1⟩
  have hJ : J.Of ⟨(0 : CurvePoint).x, (0 : CurvePoint).y⟩ := by
    refine ⟨one_ne_zero, ?_, ?_⟩
    · show (0 : Fp2) = 0 * 1 * 1
      ring
    · show (1 : Fp2) = (0 * 0 + 1 * 1) * (1 * 1)
      ring
  have hconj : J.map conjHom = J := by
    simp only [Jacobi.map, J, map_zero, map_one]
  have hof := h.fractions J hJ
  rw [hconj] at hof
  obtain ⟨hxn, hyn⟩ := hF
  have hx := hof.xn.symm.trans hxn
  have hy := hof.yn.symm.trans hyn
  apply Point.ext
  · exact (mul_eq_zero.mp hx).resolve_right hof.xd_ne
  · exact mul_right_cancel₀ hof.yd_ne (hy.trans (one_mul _).symm)

/-- **The image of n G is n times the first point of the block.** -/
theorem isImage_nsmul (hF : F.Tested j) (hzero : F.FixesZero)
    (hex : ∀ A, OddOrder A → ∃ B, IsImage endo F A B) (n : Nat) :
    IsImage endo F (n • basePoint 0) (n • basePoint j) := by
  induction n with
  | zero =>
    obtain ⟨B, hB⟩ := hex _ (oddOrder_nsmul 0)
    rw [zero_nsmul] at hB
    have hB0 := hB.eq_zero hzero
    rw [hB0] at hB
    rwa [zero_nsmul, zero_nsmul]
  | succ n ih =>
    obtain ⟨B, hB⟩ := hex _ (oddOrder_nsmul (n + 1))
    rw [succ_nsmul] at hB ⊢
    rw [succ_nsmul, ← ih.add_base hF hB]
    exact hB

end Images

theorem represents_eccPhi {P : PointExtproj Fp2} {n : Nat} (h : RepresentsFp2 P (n • basePoint 0)) :
    RepresentsFp2 (eccPhi fp2Ops P) (n • basePoint 1) :=
  (isImage_nsmul tested_phi fixesZero_phi (fun _ => exists_image_phi) n).point P h

theorem represents_eccPsi {P : PointExtproj Fp2} {n : Nat} (h : RepresentsFp2 P (n • basePoint 0)) :
    RepresentsFp2 (eccPsi fp2Ops P) (n • basePoint 2) :=
  (isImage_nsmul tested_psi fixesZero_psi (fun _ => exists_image_psi) n).point P h

/-! ## The first points of the blocks -/

/-- The residue of the `j`-th sub-scalar. -/
def blockScalar (j : Fin 4) : Nat :=
  (recombine (fun i => if i = j then 1 else 0) % orderNat).toNat

theorem fits_blockScalar : ∀ j, Fits (blockScalar j) := by decide +kernel

theorem first_entries_follow : ∀ j, (entry pairOps j 0).Of pairOps
    (multipleOf pairOps (entry pairOps 0 0) (blockScalar j)) := by
  decide +kernel

/-- **Block j is of the multiple of G by the residue of the j-th sub-scalar.** -/
theorem basePoint_eq (j : Fin 4) : basePoint j = blockScalar j • basePoint 0 := by
  have hof := (first_entries_follow j).map ofPair_hom
  rw [map_multipleOf ofPair_hom, ofPair_hom.map_entry, ofPair_hom.map_entry] at hof
  exact eq_of_isPrecompFp2 (isPrecompFp2_first j)
    (isPrecompFp2_of (representsFp2_multipleOf (isPrecompFp2_first 0) (fits_blockScalar j)) hof)

end ZkQuorum.Crypto
