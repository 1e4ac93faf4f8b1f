import ZkQuorum.Crypto.Validation

/-!
# The multiples in the table (crypto/src/riscv_tables.c)

Block j of `DOUBLE_SCALAR_TABLE` holds the odd multiples of a point of the curve, its first
entry: each entry is the one before it plus twice the first
(**`isPrecompFp2_entry`**). The sums are computed on pairs of numbers below p, which stand for
field elements as the words of a build do.
-/

namespace ZkQuorum.Crypto

open Edwards

/-! ## Pairs of numbers -/

/-- The operations on the components modulo p. -/
def pairOps : F2Ops (Nat × Nat) where
  fp2add1271 x y := ((x.1 + y.1) % p1271, (x.2 + y.2) % p1271)
  fp2sub1271 x y := ((x.1 + (p1271 - y.1 % p1271)) % p1271, (x.2 + (p1271 - y.2 % p1271)) % p1271)
  fp2mul1271 x y :=
    ((x.1 * y.1 + (p1271 - x.2 * y.2 % p1271)) % p1271, (x.1 * y.2 + x.2 * y.1) % p1271)
  fp2sqr1271 x :=
    ((x.1 * x.1 + (p1271 - x.2 * x.2 % p1271)) % p1271, (x.1 * x.2 + x.2 * x.1) % p1271)
  fp2neg1271 x := (p1271 - x.1 % p1271, p1271 - x.2 % p1271)
  fpneg1271 x := (x.1, p1271 - x.2 % p1271)
  const a := (a.c0.value, a.c1.value)

/-- The field element that a pair stands for. -/
def ofPair (x : Nat × Nat) : Fp2 := ⟨x.1, x.2⟩

theorem cast_sub_mod (n : Nat) : ((p1271 - n % p1271 : Nat) : Fp) = -n := by
  rw [Nat.cast_sub (Nat.le_of_lt (Nat.mod_lt n (by decide))), ZMod.natCast_self, ZMod.natCast_mod,
    zero_sub]

theorem cast_mod (n : Nat) : ((n % p1271 : Nat) : Fp) = n := ZMod.natCast_mod n p1271

theorem ofPair_hom : F2Hom pairOps fp2Ops ofPair where
  map_add x y := by
    apply Fp2.ext
    · show (((x.1 + y.1) % p1271 : Nat) : Fp) = x.1 + y.1
      rw [cast_mod, Nat.cast_add]
    · show (((x.2 + y.2) % p1271 : Nat) : Fp) = x.2 + y.2
      rw [cast_mod, Nat.cast_add]
  map_sub x y := by
    apply Fp2.ext
    · show (((x.1 + (p1271 - y.1 % p1271)) % p1271 : Nat) : Fp) = x.1 - y.1
      rw [cast_mod, Nat.cast_add, cast_sub_mod, sub_eq_add_neg]
    · show (((x.2 + (p1271 - y.2 % p1271)) % p1271 : Nat) : Fp) = x.2 - y.2
      rw [cast_mod, Nat.cast_add, cast_sub_mod, sub_eq_add_neg]
  map_mul x y := by
    apply Fp2.ext
    · show (((x.1 * y.1 + (p1271 - x.2 * y.2 % p1271)) % p1271 : Nat) : Fp) = (_ * _ : Fp2).re
      rw [cast_mod, Nat.cast_add, cast_sub_mod, re_mul, Nat.cast_mul, Nat.cast_mul, sub_eq_add_neg]
      rfl
    · show (((x.1 * y.2 + x.2 * y.1) % p1271 : Nat) : Fp) = (_ * _ : Fp2).im
      rw [cast_mod, Nat.cast_add, im_mul, Nat.cast_mul, Nat.cast_mul]
      rfl
  map_sqr x := by
    apply Fp2.ext
    · show (((x.1 * x.1 + (p1271 - x.2 * x.2 % p1271)) % p1271 : Nat) : Fp) = (_ * _ : Fp2).re
      rw [cast_mod, Nat.cast_add, cast_sub_mod, re_mul, Nat.cast_mul, Nat.cast_mul, sub_eq_add_neg]
      rfl
    · show (((x.1 * x.2 + x.2 * x.1) % p1271 : Nat) : Fp) = (_ * _ : Fp2).im
      rw [cast_mod, Nat.cast_add, im_mul, Nat.cast_mul, Nat.cast_mul]
      rfl
  map_neg x := Fp2.ext (cast_sub_mod x.1) (cast_sub_mod x.2)
  map_conj x := Fp2.ext rfl (cast_sub_mod x.2)
  map_const _ := rfl

/-! ## The entries -/

/-- The inverse of 2. -/
def half : F2elm := ⟨⟨(0, 0x4000000000000000), by decide⟩, .zero⟩

section Entries

variable {α : Type} (o : F2Ops α)

/-- An entry of the table. -/
def entry (j : Fin 4) (i : Fin 64) : PointPrecomp α := (doubleScalarPoint j i).map o.const

/-- The affine point behind a precomputed one. -/
def PointPrecomp.affine (M : PointPrecomp α) : PointAffine α :=
  ⟨o.fp2mul1271 (o.const half) (o.fp2sub1271 M.xy M.yx),
    o.fp2mul1271 (o.const half) (o.fp2add1271 M.xy M.yx)⟩

/-- A precomputed point as the first operand of `eccadd_core`. -/
def PointPrecomp.toR2 (M : PointPrecomp α) : PointExtprojPrecomp α :=
  ⟨M.xy, M.yx, o.fp2add1271 (o.const .one) (o.const .one), M.t2⟩

/-- Twice the first entry of block j, as the second operand of `eccadd_core`. -/
def doubledBase (j : Fin 4) : PointExtprojPrecomp α :=
  r1ToR3 o (eccdouble o (pointSetup o ((entry o j 0).affine o)))

/-- The precomputed point M is that of the coordinates P. -/
def PointPrecomp.Of (M : PointPrecomp α) (P : PointExtproj α) : Prop :=
  o.fp2mul1271 M.xy P.z = o.fp2add1271 P.x P.y ∧ o.fp2mul1271 M.yx P.z = o.fp2sub1271 P.y P.x ∧
    o.fp2mul1271 M.t2 P.z
      = o.fp2mul1271 (o.fp2mul1271 (o.fp2add1271 P.ta P.ta) P.tb) (o.const parameterD)

instance [DecidableEq α] (M : PointPrecomp α) (P : PointExtproj α) : Decidable (M.Of o P) := by
  unfold PointPrecomp.Of
  infer_instance

end Entries

section Map

variable {α β : Type} {o : F2Ops α} {o' : F2Ops β} {f : α → β} (h : F2Hom o o' f)

include h

theorem F2Hom.map_entry (j : Fin 4) (i : Fin 64) : (entry o j i).map f = entry o' j i := by
  simp only [entry, PointPrecomp.map, h.map_const]

theorem F2Hom.map_affine (M : PointPrecomp α) :
    (M.affine o).map f = (M.map f).affine o' := by
  simp only [PointPrecomp.affine, PointAffine.map, PointPrecomp.map, h.map_mul, h.map_sub,
    h.map_add, h.map_const]

theorem F2Hom.map_toR2 (M : PointPrecomp α) : (M.toR2 o).map f = (M.map f).toR2 o' := by
  simp only [PointPrecomp.toR2, PointExtprojPrecomp.map, PointPrecomp.map, h.map_add, h.map_const]

theorem F2Hom.map_doubledBase (j : Fin 4) : (doubledBase o j).map f = doubledBase o' j := by
  rw [doubledBase, h.map_r1ToR3, h.map_eccdouble, h.map_pointSetup, h.map_affine, h.map_entry,
    ← doubledBase]

/-- What holds of the pairs holds of the field elements. -/
theorem PointPrecomp.Of.map {M : PointPrecomp α} {P : PointExtproj α} (hof : M.Of o P) :
    (M.map f).Of o' (P.map f) := by
  obtain ⟨hxy, hyx, ht⟩ := hof
  have hxy' := congrArg f hxy
  rw [h.map_mul, h.map_add] at hxy'
  have hyx' := congrArg f hyx
  rw [h.map_mul, h.map_sub] at hyx'
  have ht' := congrArg f ht
  rw [h.map_mul, h.map_mul, h.map_mul, h.map_add, h.map_const] at ht'
  exact ⟨hxy', hyx', ht'⟩

end Map

theorem first_entries : ∀ j : Fin 4,
    let A := (entry fp2Ops j 0).affine fp2Ops
    residualFp2 A.x A.y = 0 ∧ (entry fp2Ops j 0).t2 = 2 * curveD * A.x * A.y := by
  decide +kernel

/-- The point that block j is of. -/
def basePoint (j : Fin 4) : CurvePoint where
  x := ((entry fp2Ops j 0).affine fp2Ops).x
  y := ((entry fp2Ops j 0).affine fp2Ops).y
  on := onCurve_iff_residualFp2.mpr (first_entries j).1

/-- Each entry is the one before it plus twice the first. -/
theorem entries_follow : ∀ (j : Fin 4) (i : Fin 63), (entry pairOps j i.succ).Of pairOps
    (eccaddCore pairOps ((entry pairOps j i.castSucc).toR2 pairOps) (doubledBase pairOps j)) := by
  decide +kernel

theorem entry_of (j : Fin 4) (i : Fin 63) : (entry fp2Ops j i.succ).Of fp2Ops
    (eccaddCore fp2Ops ((entry fp2Ops j i.castSucc).toR2 fp2Ops) (doubledBase fp2Ops j)) := by
  have h := (entries_follow j i).map ofPair_hom
  rwa [ofPair_hom.map_eccaddCore, ofPair_hom.map_toR2, ofPair_hom.map_entry, ofPair_hom.map_entry,
    ofPair_hom.map_doubledBase] at h

/-! ## The multiples -/

section Multiples

variable {M : PointPrecomp Fp2} {P : PointExtproj Fp2} {A : CurvePoint}

theorem half_add_half : (half.toFp2 : Fp2) + half.toFp2 = 1 := by decide +kernel

theorem isR2_toR2 (h : IsPrecompFp2 M A) : IsR2 (M.toR2 fp2Ops) A 1 := by
  refine { z_ne := one_ne_zero, xy := ?_, yx := ?_, z2 := ?_, t2 := ?_ }
  · rw [mul_one]
    exact h.xy
  · rw [mul_one]
    exact h.yx
  · show (F2elm.toFp2 .one + F2elm.toFp2 .one : Fp2) = 2 * 1
    rw [toFp2_one, mul_one, one_add_one_eq_two]
  · rw [mul_one]
    exact h.t2

theorem isPrecompFp2_of (hP : RepresentsFp2 P A) (hof : M.Of fp2Ops P) : IsPrecompFp2 M A := by
  have ht := hP.t_eq
  obtain ⟨hxy, hyx, ht2⟩ := hof
  refine { xy := ?_, yx := ?_, t2 := ?_ }
  · apply mul_right_cancel₀ hP.z_ne
    refine Eq.trans hxy ?_
    show P.x + P.y = _
    rw [hP.x, hP.y]
    ring
  · apply mul_right_cancel₀ hP.z_ne
    refine Eq.trans hyx ?_
    show P.y - P.x = _
    rw [hP.x, hP.y]
    ring
  · apply mul_right_cancel₀ hP.z_ne
    refine Eq.trans ht2 ?_
    show (P.ta + P.ta) * P.tb * curveD = _
    linear_combination 2 * curveD * ht

theorem isPrecompFp2_first (j : Fin 4) : IsPrecompFp2 (entry fp2Ops j 0) (basePoint j) := by
  have hhalf := half_add_half
  refine { xy := ?_, yx := ?_, t2 := (first_entries j).2 }
  · show (entry fp2Ops j 0).xy = half.toFp2 * ((entry fp2Ops j 0).xy - (entry fp2Ops j 0).yx)
      + half.toFp2 * ((entry fp2Ops j 0).xy + (entry fp2Ops j 0).yx)
    linear_combination -(entry fp2Ops j 0).xy * hhalf
  · show (entry fp2Ops j 0).yx = half.toFp2 * ((entry fp2Ops j 0).xy + (entry fp2Ops j 0).yx)
      - half.toFp2 * ((entry fp2Ops j 0).xy - (entry fp2Ops j 0).yx)
    linear_combination -(entry fp2Ops j 0).yx * hhalf

theorem affine_of_isPrecompFp2 (h : IsPrecompFp2 M A) : M.affine fp2Ops = ⟨A.x, A.y⟩ := by
  have hhalf := half_add_half
  have hx : half.toFp2 * (M.xy - M.yx) = A.x := by
    rw [h.xy, h.yx]
    linear_combination A.x * hhalf
  have hy : half.toFp2 * (M.xy + M.yx) = A.y := by
    rw [h.xy, h.yx]
    linear_combination A.y * hhalf
  exact congrArg₂ PointAffine.mk hx hy

theorem eq_of_isPrecompFp2 {B : CurvePoint} (hA : IsPrecompFp2 M A) (hB : IsPrecompFp2 M B) :
    A = B := by
  have haffine := (affine_of_isPrecompFp2 hA).symm.trans (affine_of_isPrecompFp2 hB)
  exact Point.ext (congrArg PointAffine.x haffine) (congrArg PointAffine.y haffine)

/-- **The entries of a block are the odd multiples of its first.** -/
theorem isPrecompFp2_entry (j : Fin 4) (i : Fin 64) :
    IsPrecompFp2 (entry fp2Ops j i) ((2 * i.val + 1) • basePoint j) := by
  induction i using Fin.induction with
  | zero =>
    rw [show 2 * (0 : Fin 64).val + 1 = 1 from rfl, one_nsmul]
    exact isPrecompFp2_first j
  | succ i ih =>
    have hdouble : IsR3 (doubledBase fp2Ops j) (basePoint j + basePoint j) _ :=
      (representsFp2_pointSetup (basePoint j)).eccdouble.r1ToR3
    have hsum := (isR2_toR2 ih).eccaddCore hdouble
    rw [← two_nsmul, ← add_nsmul] at hsum
    exact isPrecompFp2_of hsum (entry_of j i)

end Multiples

end ZkQuorum.Crypto
