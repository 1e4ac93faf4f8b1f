import ZkQuorum.Crypto.Verify

/-!
# The two builds agree (crypto/src/riscv_fourq_verify.c)

The builds may only represent zero differently, and `verify` looks at limbs in three
places. `mod1271` has reduced what `decode` and the low-order test look at, `eccnorm`
what `encode` does. `ecc_point_validate` looks at a difference that is p instead of 0 in
one build alone, but only where x or y is 0, and such a key is of low order: 392 A has
X = 0, so that `verify` rejects it whichever way the validation went.
-/

namespace ZkQuorum.Crypto

/-- Conjugation in GF(p^2). -/
def conjFp2 (x : Fp2) : Fp2 := fp2Ops.fpneg1271 x

theorem conjFp2_eq_zero {x : Fp2} : conjFp2 x = 0 ↔ x = 0 := by
  constructor
  · intro h
    have hre : x.re = 0 := congrArg (·.re) h
    have him : -x.im = 0 := congrArg (·.im) h
    exact Fp2.ext hre (neg_eq_zero.mp him)
  · intro h
    rw [h]
    exact Fp2.ext rfl neg_zero

/-- A point with a zero coordinate. -/
def OnAxis (A : PointAffine Fp2) : Prop := A.x = 0 ∨ A.y = 0

/-! ## Points with a zero coordinate -/

/-- Doubling brings a point with a zero coordinate to X = 0. -/
theorem eccdouble_of_axis {P : PointExtproj Fp2} (h : P.x = 0 ∨ P.y = 0) :
    (eccdouble fp2Ops P).x = 0 ∧ (eccdouble fp2Ops P).ta = 0 := by
  have hta : (eccdouble fp2Ops P).ta = 0 := by
    show (P.x + P.y) * (P.x + P.y) - (P.x * P.x + P.y * P.y) = 0
    rcases h with h | h
    · rw [h]
      ring
    · rw [h]
      ring
  constructor
  · show _ * (eccdouble fp2Ops P).ta = 0
    rw [hta, mul_zero]
  · exact hta

/-- A precomputed point with x = 0 or y = 0. -/
def PrecompOnAxis (Q : PointExtprojPrecomp Fp2) : Prop := Q.xy = Q.yx ∨ Q.xy + Q.yx = 0

/-- Adding a point with a zero coordinate to one with X = 0 leaves a zero coordinate. -/
theorem eccadd_of_axis {Q : PointExtprojPrecomp Fp2} {P : PointExtproj Fp2}
    (hQ : PrecompOnAxis Q) (hx : P.x = 0) :
    (eccadd fp2Ops Q P).x = 0 ∨ (eccadd fp2Ops Q P).y = 0 := by
  have htb : (eccadd fp2Ops Q P).tb = (Q.xy - Q.yx) * P.y := by
    show Q.xy * (P.x + P.y) - Q.yx * (P.y - P.x) = _
    rw [hx]
    ring
  have hta : (eccadd fp2Ops Q P).ta = (Q.xy + Q.yx) * P.y := by
    show Q.xy * (P.x + P.y) + Q.yx * (P.y - P.x) = _
    rw [hx]
    ring
  rcases hQ with h | h
  · left
    show (eccadd fp2Ops Q P).tb * _ = 0
    rw [htb, h, sub_self, zero_mul, zero_mul]
  · right
    show (eccadd fp2Ops Q P).ta * _ = 0
    rw [hta, h, zero_mul, zero_mul]

theorem precompOnAxis_r1ToR2 {A : PointAffine Fp2} (h : OnAxis A) :
    PrecompOnAxis (r1ToR2 fp2Ops (pointSetup fp2Ops A)) := by
  rcases h with h | h
  · left
    show A.x + A.y = A.y - A.x
    rw [h, zero_add, sub_zero]
  · right
    show A.x + A.y + (A.y - A.x) = 0
    rw [h]
    ring

/-- **392 times a point with a zero coordinate has X = 0.** -/
theorem cofactorClearing_of_axis {A : PointAffine Fp2} (h : OnAxis A) :
    (cofactorClearing fp2Ops (pointSetup fp2Ops A)).x = 0 := by
  have hQ := precompOnAxis_r1ToR2 h
  have hdouble : ∀ P : PointExtproj Fp2, P.x = 0 ∨ P.y = 0 → (eccdouble fp2Ops P).x = 0 :=
    fun P hP => (eccdouble_of_axis hP).1
  simp only [cofactorClearing]
  apply hdouble
  left
  apply hdouble
  left
  apply hdouble
  apply eccadd_of_axis hQ
  apply hdouble
  left
  apply hdouble
  left
  apply hdouble
  left
  apply hdouble
  apply eccadd_of_axis hQ
  exact hdouble _ h

/-! ## What verification sees of a point -/

section Point

variable {build : Build} {A : PointAffine F2elm}

theorem words_eq_zero_iff (x : F2elm) :
    ((mod1271 x.c0).limbs.1 ||| (mod1271 x.c0).limbs.2 ||| (mod1271 x.c1).limbs.1
      ||| (mod1271 x.c1).limbs.2 == 0) = decide (x.toFp2 = 0) := by
  have h0 : (mod1271 x.c0).isZero = decide (x.c0.toFp = 0) := by rw [mod1271_eq, Felm.isZero_ofFp]
  have h1 : (mod1271 x.c1).isZero = decide (x.c1.toFp = 0) := by rw [mod1271_eq, Felm.isZero_ofFp]
  rw [Bool.eq_iff_iff, Felm.isZero, Bool.and_eq_true, beq_iff_eq, beq_iff_eq,
    decide_eq_true_eq] at h0 h1
  rw [Bool.eq_iff_iff, beq_iff_eq, UInt64.or_eq_zero_iff, UInt64.or_eq_zero_iff,
    UInt64.or_eq_zero_iff, and_assoc, h0, h1, decide_eq_true_eq]
  constructor
  · rintro ⟨hre, him⟩
    exact Fp2.ext hre him
  · intro h
    exact ⟨congrArg (·.re) h, congrArg (·.im) h⟩

theorem lowOrder_eq (build : Build) (A : PointAffine F2elm) : lowOrder build A
    = decide ((cofactorClearing fp2Ops (pointSetup fp2Ops (A.map F2elm.toFp2))).x = 0) := by
  have h := toFp2_hom build
  rw [← h.map_pointSetup, ← h.map_cofactorClearing]
  exact words_eq_zero_iff _

/-- A key with a zero coordinate is rejected in both builds. -/
theorem verifyPoint_of_axis (h : OnAxis (A.map F2elm.toFp2)) (publicKey messageDigest : ByteVec 32)
    (signature : ByteVec 64) : verifyPoint build publicKey messageDigest signature A = false := by
  rw [verifyPoint, lowOrder_eq, cofactorClearing_of_axis h]
  rfl

/-- `ecc_mul_double` off the axes: the points behind its input and its output. -/
theorem eccMulDouble_eq (k l : Words4) (h : ¬ OnAxis (A.map F2elm.toFp2)) :
    eccMulDouble build k l A =
      if residualFp2 A.x.toFp2 A.y.toFp2 = 0 then
        some ((affine (mulDouble fp2Ops k l (pointSetup fp2Ops (A.map F2elm.toFp2)))).map
          F2elm.ofFp2)
      else none := by
  have hhom := toFp2_hom build
  have hvalid := validXY_iff build (x := A.x) (y := A.y) (fun hx => h (.inl hx))
    (fun hy => h (.inr hy))
  rw [eccMulDouble, eccnorm_eq, hhom.map_mulDouble, hhom.map_pointSetup]
  exact if_congr hvalid rfl rfl

/-- Off the axes the result depends only on the point behind A, and not on the build. -/
theorem verifyPoint_congr {build' : Build} {A' : PointAffine F2elm}
    (heq : A.map F2elm.toFp2 = A'.map F2elm.toFp2) (h : ¬ OnAxis (A.map F2elm.toFp2))
    (publicKey messageDigest : ByteVec 32) (signature : ByteVec 64) :
    verifyPoint build publicKey messageDigest signature A
      = verifyPoint build' publicKey messageDigest signature A' := by
  have hx : A.x.toFp2 = A'.x.toFp2 := congrArg PointAffine.x heq
  have hy : A.y.toFp2 = A'.y.toFp2 := congrArg PointAffine.y heq
  have hmul : ∀ k l, eccMulDouble build k l A = eccMulDouble build' k l A' := by
    intro k l
    rw [eccMulDouble_eq k l h, eccMulDouble_eq k l (heq ▸ h), heq, hx, hy]
  simp only [verifyPoint, lowOrder_eq, heq, hmul]

end Point

/-! ## What decoding yields -/

/-- The point behind a decoded key, and none where neither sign of x is on the curve. -/
def decodeFp2 (x y : Fp2) : Option (PointAffine Fp2) :=
  if residualFp2 x y = 0 then some ⟨x, y⟩
  else if residualFp2 (conjFp2 x) y = 0 then some ⟨conjFp2 x, y⟩ else none

section Decode

variable {build : Build} {Pencoded : Encoded} {A : PointAffine F2elm}

theorem decode_eq : decode build Pencoded =
    if validXY build (decodeX build Pencoded) (decodeY Pencoded) then
      some ⟨decodeX build Pencoded, decodeY Pencoded⟩
    else if validXY build (build.ops.fpneg1271 (decodeX build Pencoded)) (decodeY Pencoded) then
      some ⟨build.ops.fpneg1271 (decodeX build Pencoded), decodeY Pencoded⟩
    else none := rfl

/-- A decoded point has the y of the bytes, and x or its conjugate. -/
theorem decode_cases (h : decode build Pencoded = some A) : A.y = decodeY Pencoded ∧
    (A.x.toFp2 = (decodeX build Pencoded).toFp2 ∨
      A.x.toFp2 = conjFp2 (decodeX build Pencoded).toFp2) := by
  rw [decode_eq] at h
  split at h
  · cases h
    exact ⟨rfl, .inl rfl⟩
  · split at h
    · cases h
      exact ⟨rfl, .inr ((toFp2_hom build).map_conj _)⟩
    · cases h

/-- A key whose x or y is 0 decodes to a point with a zero coordinate, if at all. -/
theorem onAxis_of_decode (hx : (decodeX build Pencoded).toFp2 = 0 ∨ (decodeY Pencoded).toFp2 = 0)
    (h : decode build Pencoded = some A) : OnAxis (A.map F2elm.toFp2) := by
  obtain ⟨hAy, hAx⟩ := decode_cases h
  rcases hx with hx | hy
  · left
    rw [hx] at hAx
    rcases hAx with hAx | hAx
    · exact hAx
    · exact hAx.trans (conjFp2_eq_zero.mpr rfl)
  · right
    show A.y.toFp2 = 0
    rw [hAy, hy]

/-- Off the axes `decode` sees only the point behind x and y. -/
theorem map_decode (hx : (decodeX build Pencoded).toFp2 ≠ 0) (hy : (decodeY Pencoded).toFp2 ≠ 0) :
    (decode build Pencoded).map (PointAffine.map F2elm.toFp2)
      = decodeFp2 (decodeX build Pencoded).toFp2 (decodeY Pencoded).toFp2 := by
  have hconj : (build.ops.fpneg1271 (decodeX build Pencoded)).toFp2
      = conjFp2 (decodeX build Pencoded).toFp2 := (toFp2_hom build).map_conj _
  have hx' : (build.ops.fpneg1271 (decodeX build Pencoded)).toFp2 ≠ 0 := by
    rw [hconj]
    exact fun h => hx (conjFp2_eq_zero.mp h)
  have hvalid := validXY_iff build hx hy
  have hvalid' := validXY_iff build hx' hy
  rw [decodeFp2, ← hconj, decode_eq]
  by_cases h : residualFp2 (decodeX build Pencoded).toFp2 (decodeY Pencoded).toFp2 = 0
  · rw [if_pos h, if_pos (hvalid.mpr h)]
    rfl
  · rw [if_neg h, if_neg (fun hv => h (hvalid.mp hv))]
    by_cases h' : residualFp2 (build.ops.fpneg1271 (decodeX build Pencoded)).toFp2
        (decodeY Pencoded).toFp2 = 0
    · rw [if_pos h', if_pos (hvalid'.mpr h')]
      rfl
    · rw [if_neg h', if_neg (fun hv => h' (hvalid'.mp hv))]
      rfl

/-- `verify` from `decode` on, for a key whose x or y is 0. -/
theorem verifyKey_of_axis
    (hx : (decodeX build Pencoded).toFp2 = 0 ∨ (decodeY Pencoded).toFp2 = 0)
    (publicKey messageDigest : ByteVec 32) (signature : ByteVec 64) :
    verifyKey build publicKey messageDigest signature Pencoded = false := by
  rw [verifyKey]
  cases hdecode : decode build Pencoded with
  | none => rfl
  | some A => exact verifyPoint_of_axis (onAxis_of_decode hx hdecode) _ _ _

end Decode

theorem verifyKey_build_eq (publicKey messageDigest : ByteVec 32) (signature : ByteVec 64)
    (Pencoded : Encoded) : verifyKey .portable publicKey messageDigest signature Pencoded
      = verifyKey .bigint2 publicKey messageDigest signature Pencoded := by
  have hX : (decodeX .portable Pencoded).toFp2 = (decodeX .bigint2 Pencoded).toFp2 := by
    rw [toFp2_decodeX, toFp2_decodeX]
  -- with x or y 0 both builds reject, whatever they decode
  by_cases haxis : (decodeX .portable Pencoded).toFp2 = 0 ∨ (decodeY Pencoded).toFp2 = 0
  · rw [verifyKey_of_axis haxis]
    rw [hX] at haxis
    rw [verifyKey_of_axis haxis]
  · have hx : (decodeX .portable Pencoded).toFp2 ≠ 0 := fun h => haxis (.inl h)
    have hy : (decodeY Pencoded).toFp2 ≠ 0 := fun h => haxis (.inr h)
    have hx' : (decodeX .bigint2 Pencoded).toFp2 ≠ 0 := by
      rw [← hX]
      exact hx
    have hmap : (decode .portable Pencoded).map (PointAffine.map F2elm.toFp2)
        = (decode .bigint2 Pencoded).map (PointAffine.map F2elm.toFp2) := by
      rw [map_decode hx hy, map_decode hx' hy, hX]
    rw [verifyKey, verifyKey]
    cases hp : decode .portable Pencoded with
    | none =>
      rw [hp] at hmap
      have hb : decode .bigint2 Pencoded = none := Option.map_eq_none_iff.mp hmap.symm
      rw [hb]
    | some A =>
      rw [hp] at hmap
      obtain ⟨A', hb, hAA'⟩ := Option.map_eq_some_iff.mp hmap.symm
      rw [hb]
      apply verifyPoint_congr hAA'.symm
      obtain ⟨hAy, hAx⟩ := decode_cases hp
      rintro (h | h)
      · rcases hAx with hAx | hAx
        · exact hx (hAx.symm.trans h)
        · exact hx (conjFp2_eq_zero.mp (hAx.symm.trans h))
      · have hAy' : A.y.toFp2 = (decodeY Pencoded).toFp2 := congrArg F2elm.toFp2 hAy
        exact hy (hAy'.symm.trans h)

/-- **The portable and the bigint2 build of `verify` return the same result.** -/
theorem verify_build_eq (publicKey messageDigest : ByteVec 32) (signature : ByteVec 64) :
    verify .portable publicKey messageDigest signature
      = verify .bigint2 publicKey messageDigest signature := by
  simp only [verify, verifyKey_build_eq]

end ZkQuorum.Crypto
