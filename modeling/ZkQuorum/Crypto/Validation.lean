import ZkQuorum.Crypto.Curve

/-!
# Point validation and the two zeros (crypto/src/riscv_fourq_verify.c)

`ecc_point_validate` compares each component of the residual with 0 and with all ones.
No field routine returns all ones: the second representation of zero is p. A residual
with the component p, which only the portable build produces, is therefore taken for a
point off the curve.

**`eccPointValidate_exact`** says on which coordinates that happens: on eight pairs, all
with a zero coordinate that is spelled with p. Reduced y never are among them
(`validXY_iff_of_reduced`).
-/

namespace ZkQuorum.Crypto

open Edwards

namespace Felm

/-- p, the second representation of zero. -/
def secondZero : Felm := ⟨(0xFFFFFFFFFFFFFFFF, 0x7FFFFFFFFFFFFFFF), by decide⟩

/-- p - 1. -/
def negOne : Felm := ⟨(0xFFFFFFFFFFFFFFFE, 0x7FFFFFFFFFFFFFFF), by decide⟩

theorem toFp_negOne : negOne.toFp = -1 := by
  have h : (p1271 : Fp) = negOne.toFp + 1 := Nat.cast_succ (2 ^ 127 - 2)
  rw [natCast_p1271] at h
  exact eq_neg_of_add_eq_zero_left h.symm

theorem eq_zero_or_secondZero {a : Felm} (h : a.toFp = 0) : a = zero ∨ a = secondZero := by
  rcases toFp_eq_zero_iff.mp h with h | h
  · exact .inl (ext_value h)
  · exact .inr (ext_value h)

/-- A nonzero residue has one representation. -/
theorem eq_of_toFp_eq {a b : Felm} (hb : b.toFp ≠ 0) (h : a.toFp = b.toFp) : a = b := by
  rw [← ofFp_toFp hb, ← h, ofFp_toFp (h ▸ hb)]

theorem eq_one_or_negOne {a : Felm} (h : a.toFp * a.toFp = 1) : a = one ∨ a = negOne := by
  rcases mul_self_eq_one_iff.mp h with h | h
  · left
    apply eq_of_toFp_eq
    · rw [toFp_one]
      exact one_ne_zero
    · rw [h, toFp_one]
  · right
    apply eq_of_toFp_eq
    · rw [toFp_negOne]
      exact neg_ne_zero.mpr one_ne_zero
    · rw [h, toFp_negOne]

end Felm

open Felm

/-! ## Where the portable routines return p -/

theorem toFp_eq_zero_of_value_eq_p {a : Felm} (h : a.value = p1271) : a.toFp = 0 :=
  toFp_eq_zero_iff.mpr (.inr h)

theorem value_fpmul1271_eq_zero_iff (a b : Felm) :
    (fpmul1271 .portable a b).value = 0 ↔ a.value = 0 ∨ b.value = 0 :=
  Raw.fpmul1271_eq_zero_iff a.value_le b.value_le

/-- A product is p only when a factor is. -/
theorem eq_p_of_value_fpmul1271 {a b : Felm} (h : (fpmul1271 .portable a b).value = p1271) :
    (a.value = p1271 ∧ b.value ≠ 0) ∨ (b.value = p1271 ∧ a.value ≠ 0) := by
  have hne : ¬ (a.value = 0 ∨ b.value = 0) := by
    rw [← value_fpmul1271_eq_zero_iff, h]
    decide
  have hprod : a.toFp * b.toFp = 0 := by
    rw [← toFp_fpmul1271 .portable]
    exact toFp_eq_zero_of_value_eq_p h
  rw [not_or] at hne
  rcases mul_eq_zero.mp hprod with ha | hb
  · exact .inl ⟨(toFp_eq_zero_iff.mp ha).resolve_left hne.1, hne.2⟩
  · exact .inr ⟨(toFp_eq_zero_iff.mp hb).resolve_left hne.2, hne.1⟩

/-- A doubled element is p only when the element is: p is odd. -/
theorem eq_p_of_value_double {a : Felm} (h : (fpadd1271 a a).value = p1271) : a.value = p1271 := by
  rw [value_fpadd1271] at h
  split at h
  · simp only [p1271] at h
    omega
  · omega

/-- The second component of a square is p only when a component is p. -/
theorem eq_p_of_fp2sqr1271 {y : F2elm} (h : (fp2sqr1271 .portable y).c1.value = p1271) :
    (y.c0.value = p1271 ∧ y.c1.value ≠ 0) ∨ (y.c1.value = p1271 ∧ y.c0.value ≠ 0) :=
  eq_p_of_value_fpmul1271 (eq_p_of_value_double h)

/-- The second component of a square is 0 only when a component is 0. -/
theorem eq_zero_of_fp2sqr1271 {x : F2elm} (h : (fp2sqr1271 .portable x).c1.value = 0) :
    x.c0.value = 0 ∨ x.c1.value = 0 :=
  (value_fpmul1271_eq_zero_iff x.c0 x.c1).mp (value_of_fpadd1271_eq_zero h).1

/-- Both components are below p. -/
def F2elm.Reduced (x : F2elm) : Prop := x.c0.value < p1271 ∧ x.c1.value < p1271

theorem F2elm.reduced_ofFp2 (x : Fp2) : (F2elm.ofFp2 x).Reduced := by
  constructor
  · rw [F2elm.ofFp2, value_ofFp]
    exact val_lt x.re
  · rw [F2elm.ofFp2, value_ofFp]
    exact val_lt x.im

/-- **Validation decides the curve equation when y is reduced, in both builds.** -/
theorem validXY_iff_of_reduced (build : Build) (x : F2elm) {y : F2elm} (hy : y.Reduced) :
    validXY build x y ↔ residualFp2 x.toFp2 y.toFp2 = 0 := by
  rw [validXY_iff_ne, and_iff_left]
  intro him
  have hsqr := (im_curveResidual_eq_p him).1
  cases build with
  | portable =>
    rcases eq_p_of_fp2sqr1271 hsqr with h | h
    · exact absurd h.1 (Nat.ne_of_lt hy.1)
    · exact absurd h.1 (Nat.ne_of_lt hy.2)
  | bigint2 => exact absurd hsqr (Nat.ne_of_lt (F2elm.reduced_ofFp2 _).2)

/-! ## The coordinates that validation misses -/

/-- The coordinates (x, y) whose residual is represented with p: x is 0 and y is 1 or -1, or
x is i or -i and y is 0. -/
def missedPairs : List (F2elm × F2elm) :=
  List.product [⟨zero, zero⟩, ⟨zero, secondZero⟩, ⟨secondZero, zero⟩]
      [⟨one, secondZero⟩, ⟨negOne, secondZero⟩]
    ++ List.product [⟨zero, one⟩, ⟨zero, negOne⟩] [⟨secondZero, secondZero⟩]

theorem onCurve_iff_residualFp2 {x y : Fp2} : OnCurve curveD x y ↔ residualFp2 x y = 0 := by
  rw [residualFp2, sub_eq_zero]
  constructor
  · intro h
    rw [h]
    ring
  · intro h
    rw [OnCurve, h]
    ring

/-- The pairs are on the curve, and validation answers `FALSE`. -/
theorem missedPairs_missed : missedPairs.all (fun q =>
    residualFp2 q.1.toFp2 q.2.toFp2 == 0 && !validXY .portable q.1 q.2) = true := by
  decide +kernel

theorem eq_of_missed {x y : F2elm} (h : (x, y) ∈ missedPairs) :
    residualFp2 x.toFp2 y.toFp2 = 0 ∧ validXY .portable x y = false := by
  have hall := List.all_eq_true.mp missedPairs_missed (x, y) h
  rw [Bool.and_eq_true, beq_iff_eq, Bool.not_eq_true'] at hall
  exact hall

/-- -1 has no root in GF(p). -/
theorem mul_self_ne_neg_one (r : Fp) : r * r ≠ -1 := by
  intro h
  have hroot : r ^ 2 = -1 + 0 * r := by
    linear_combination h
  exact absurd hroot (Fact.out (p := ∀ r : Fp, r ^ 2 ≠ -1 + 0 * r) r)

/-- x is zero and spelled without p twice: y is 1 or -1, spelled with p. -/
theorem mem_missedPairs_of_x {x y : F2elm} (hx : x.toFp2 = 0)
    (hres : residualFp2 x.toFp2 y.toFp2 = 0) (hxx : x.c0.value = 0 ∨ x.c1.value = 0)
    (hyy : (y.c0.value = p1271 ∧ y.c1.value ≠ 0) ∨ (y.c1.value = p1271 ∧ y.c0.value ≠ 0)) :
    (x, y) ∈ missedPairs := by
  obtain ⟨x0, x1⟩ := x
  obtain ⟨y0, y1⟩ := y
  have hsq : y0.toFp * y0.toFp - y1.toFp * y1.toFp = 1 := by
    have hre : (residualFp2 (⟨x0, x1⟩ : F2elm).toFp2 (⟨y0, y1⟩ : F2elm).toFp2).re = 0 := by
      rw [hres]
      rfl
    rw [hx, residualFp2, mul_zero, mul_zero, zero_mul, sub_zero, zero_add] at hre
    have hsub : ((⟨y0, y1⟩ : F2elm).toFp2 * (⟨y0, y1⟩ : F2elm).toFp2).re - 1 = 0 := hre
    rw [re_mul] at hsub
    exact sub_eq_zero.mp hsub
  have hsecond : secondZero.value ≠ 0 := by decide
  have hx : (⟨x0, x1⟩ : F2elm)
      ∈ [⟨zero, zero⟩, ⟨zero, secondZero⟩, ⟨secondZero, zero⟩] := by
    rcases eq_zero_or_secondZero (congrArg (·.re) hx : x0.toFp = 0) with rfl | rfl
    · rcases eq_zero_or_secondZero (congrArg (·.im) hx : x1.toFp = 0) with rfl | rfl
      · simp
      · simp
    · rcases hxx with h | h
      · exact absurd h hsecond
      · have hx1 : x1 = zero := ext_value h
        simp [hx1]
  have hy : (⟨y0, y1⟩ : F2elm) ∈ [⟨one, secondZero⟩, ⟨negOne, secondZero⟩] := by
    rcases hyy with ⟨hy, -⟩ | ⟨hy, -⟩
    · -- y would be a root of -1 in GF(p)
      rw [toFp_eq_zero_of_value_eq_p hy, zero_mul, zero_sub] at hsq
      exact absurd (neg_eq_iff_eq_neg.mp hsq) (mul_self_ne_neg_one y1.toFp)
    · have hy1 : y1 = secondZero := ext_value hy
      rw [toFp_eq_zero_of_value_eq_p hy, zero_mul, sub_zero] at hsq
      rcases eq_one_or_negOne hsq with rfl | rfl
      · simp [hy1]
      · simp [hy1]
  exact List.mem_append_left _ (List.pair_mem_product.mpr ⟨hx, hy⟩)

/-- y is zero and spelled with p: x is i or -i, and both components of y are p. -/
theorem mem_missedPairs_of_y {x y : F2elm} (hy : y.toFp2 = 0)
    (hres : residualFp2 x.toFp2 y.toFp2 = 0) (hxx : x.c0.value = 0 ∨ x.c1.value = 0)
    (hyy : (y.c0.value = p1271 ∧ y.c1.value ≠ 0) ∨ (y.c1.value = p1271 ∧ y.c0.value ≠ 0)) :
    (x, y) ∈ missedPairs := by
  obtain ⟨x0, x1⟩ := x
  obtain ⟨y0, y1⟩ := y
  have hy0 := eq_zero_or_secondZero (congrArg (·.re) hy : y0.toFp = 0)
  have hy1 := eq_zero_or_secondZero (congrArg (·.im) hy : y1.toFp = 0)
  have hzero : zero.value ≠ p1271 := by decide
  have hpp : y0 = secondZero ∧ y1 = secondZero := by
    rcases hy0 with rfl | rfl
    · rcases hyy with ⟨h, -⟩ | ⟨-, h⟩
      · exact absurd h hzero
      · exact absurd rfl h
    · rcases hy1 with rfl | rfl
      · rcases hyy with ⟨-, h⟩ | ⟨h, -⟩
        · exact absurd rfl h
        · exact absurd h hzero
      · exact ⟨rfl, rfl⟩
  have hsq : x0.toFp * x0.toFp - x1.toFp * x1.toFp = -1 := by
    have hre : (residualFp2 (⟨x0, x1⟩ : F2elm).toFp2 (⟨y0, y1⟩ : F2elm).toFp2).re = 0 := by
      rw [hres]
      rfl
    rw [hy, residualFp2, mul_zero, zero_mul, zero_mul, zero_sub, zero_add] at hre
    have hsub : -((⟨x0, x1⟩ : F2elm).toFp2 * (⟨x0, x1⟩ : F2elm).toFp2).re - 1 = 0 := hre
    rw [re_mul] at hsub
    have hsum : -(x0.toFp * x0.toFp - x1.toFp * x1.toFp) - 1 = 0 := hsub
    linear_combination -hsum
  have hx : (⟨x0, x1⟩ : F2elm) ∈ [⟨zero, one⟩, ⟨zero, negOne⟩] := by
    rcases hxx with h | h
    · have hx0 : x0 = zero := ext_value h
      rw [hx0, toFp_zero, zero_mul, zero_sub, neg_inj] at hsq
      rcases eq_one_or_negOne hsq with rfl | rfl
      · simp [hx0]
      · simp [hx0]
    · -- x would be a root of -1 in GF(p)
      have hx1 : x1 = zero := ext_value h
      rw [hx1, toFp_zero, zero_mul, sub_zero] at hsq
      exact absurd hsq (mul_self_ne_neg_one x0.toFp)
  refine List.mem_append_right _ ?_
  rw [List.pair_mem_product, hpp.1, hpp.2]
  exact ⟨hx, List.mem_singleton_self _⟩

/-- **Validation in the portable build is exact off eight pairs**: on every other pair of
coordinates in `[0, p]` it decides the curve equation, and on these it does not. -/
theorem eccPointValidate_exact (P : PointExtproj F2elm) :
    (eccPointValidate .portable P ↔ OnCurve curveD P.x.toFp2 P.y.toFp2) ↔
      (P.x, P.y) ∉ missedPairs := by
  rw [onCurve_iff_residualFp2, eccPointValidate]
  constructor
  · intro h hmem
    obtain ⟨hres, hfalse⟩ := eq_of_missed hmem
    rw [h.mpr hres] at hfalse
    cases hfalse
  · intro hmem
    rw [validXY_iff_ne, and_iff_left_iff_imp]
    intro hres him
    obtain ⟨hyy, hxx, -⟩ := im_curveResidual_eq_p him
    have hxx := eq_zero_of_fp2sqr1271 hxx
    have hyy := eq_p_of_fp2sqr1271 hyy
    by_cases hx : P.x.toFp2 = 0
    · exact hmem (mem_missedPairs_of_x hx hres hxx hyy)
    · by_cases hy : P.y.toFp2 = 0
      · exact hmem (mem_missedPairs_of_y hy hres hxx hyy)
      · exact ((validXY_iff_ne .portable P.x P.y).mp ((validXY_iff .portable hx hy).mpr hres)).2 him

/-- The point (0, 1), with the second component of y spelled p: it is on the curve, and
validation answers `FALSE`. -/
theorem eccPointValidate_neutral_missed :
    let P : PointExtproj F2elm :=
      ⟨⟨zero, zero⟩, ⟨one, secondZero⟩, F2elm.one, ⟨zero, zero⟩, ⟨one, secondZero⟩⟩
    OnCurve curveD P.x.toFp2 P.y.toFp2 ∧ eccPointValidate .portable P = false := by
  intro P
  obtain ⟨hres, hfalse⟩ := eq_of_missed (x := P.x) (y := P.y) (.head _)
  exact ⟨onCurve_iff_residualFp2.mpr hres, hfalse⟩

end ZkQuorum.Crypto
