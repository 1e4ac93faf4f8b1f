import ZkQuorum.Crypto.Group
import ZkQuorum.Lib.Bytes

/-!
# Point compression (crypto/src/riscv_fourq_verify.c)

`ecc_point_validate`, `encode` and `decode`. Of all routines of the port these look at
the limbs of field elements: `decode` at elements that `mod1271` has reduced, and at the
second component of x when the first is zero; `ecc_point_validate` at a difference that
may be p.

**`toFp2_decodeX`** gives the point that `decode` finds, over the field.
-/

namespace ZkQuorum.Crypto

open LittleEndian

/-! ## Validation -/

/-- `!(a[0] | a[1]) || !((a[0] + 1) | (a[1] + 1))`. -/
def isZeroOrOnes (a : Felm) : Bool :=
  a.limbs.1 ||| a.limbs.2 == 0 || (a.limbs.1 + 1) ||| (a.limbs.2 + 1) == 0

/-- The difference that `ecc_point_validate` tests: y^2 - x^2 - (d x^2 y^2 + 1). -/
def curveResidual (build : Build) (x y : F2elm) : F2elm :=
  let t1 := fp2sqr1271 build y
  let t2 := fp2sqr1271 build x
  let t3 := fp2sub1271 t1 t2
  let t1 := fp2mul1271 build t1 t2
  let t2 := fp2mul1271 build t1 parameterD
  let t1 := F2elm.one
  let t2 := fp2add1271 t2 t1
  fp2sub1271 t3 t2

/-- The test of `ecc_point_validate`. -/
def validXY (build : Build) (x y : F2elm) : Bool :=
  let t1 := curveResidual build x y
  isZeroOrOnes t1.c0 && isZeroOrOnes t1.c1

/-- `ecc_point_validate`: of the point only x and y are read. -/
def eccPointValidate (build : Build) (P : PointExtproj F2elm) : Bool := validXY build P.x P.y

/-! ## Encoding -/

/-- `encode`. -/
def encode (P : PointAffine F2elm) : Bytes :=
  let temp1 := (P.x.c1.limbs.2 &&& 0x4000000000000000) <<< 1
  let temp2 := (P.x.c0.limbs.2 &&& 0x4000000000000000) <<< 1
  let sign := if P.x.c0.isZero then temp1 else temp2
  ofU64 P.y.c0.limbs.1 ++ ofU64 P.y.c0.limbs.2 ++ ofU64 P.y.c1.limbs.1
    ++ ofU64 (P.y.c1.limbs.2 ||| sign)

/-! ## Decoding -/

/-- `b[15] & 0x80`. -/
def bit127 {n : Nat} (b : ByteVec n) : UInt8 := b.val.getD 15 0 &&& 0x80

/-- The bytes that `verify` hands to `decode`: bit 127 is clear. -/
abbrev Encoded := { b : ByteVec 32 // bit127 b = 0 }

/-- The 64-bit word at an offset. -/
def load64 (b : Bytes) (i : Nat) : UInt64 := toU64 ((b.drop i).take 8)

theorem lt_of_and_eq_zero {b : UInt8} (h : b &&& 0x80 = 0) : b.toNat < 2 ^ 7 := by
  have hand : b.toNat &&& 2 ^ 7 = 0 := by
    rw [← UInt8.toNat_inj, UInt8.toNat_and] at h
    exact h
  have hbit : (b.toNat &&& 2 ^ 7).testBit 7 = false := by rw [hand, Nat.zero_testBit]
  rw [Nat.testBit_and, Nat.testBit_two_pow_self, Bool.and_true, Nat.testBit_eq_decide_div_mod_eq,
    decide_eq_false_iff_not] at hbit
  have hlt := b.toNat_lt
  omega

/-- The top byte of a word. -/
theorem load64_top {b : Bytes} {i : Nat} (h : i + 8 ≤ b.length) :
    ∃ low, low < 2 ^ 56 ∧ (load64 b i).toNat = low + 2 ^ 56 * (b.getD (i + 7) 0).toNat := by
  have hsplit : (b.drop i).take 8 = (b.drop i).take 7 ++ [b.getD (i + 7) 0] := by
    have hget : b[i + 7]? = some (b.getD (i + 7) 0) := by
      rw [List.getD_eq_getElem?_getD, List.getElem?_eq_getElem (by omega)]
      rfl
    rw [List.take_add_one, List.getElem?_drop, hget]
    rfl
  have hlow : ((b.drop i).take 7).length = 7 := by
    rw [List.length_take, List.length_drop]
    omega
  have hlength : ((b.drop i).take 8).length = 8 := by
    rw [List.length_take, List.length_drop]
    omega
  refine ⟨toNat ((b.drop i).take 7), toNat_lt_of_length hlow (Nat.le_refl _), ?_⟩
  rw [load64, toNat_toU64 hlength, hsplit, toNat_append, hlow]
  rfl

/-- The second word of the bytes: its top bit is bit 127. -/
theorem load64_eight_lt (Pencoded : Encoded) : (load64 Pencoded.val.val 8).toNat < 2 ^ 63 := by
  have hlen : Pencoded.val.val.length = 32 := Pencoded.val.property
  have hbyte := lt_of_and_eq_zero Pencoded.property
  obtain ⟨low, hlow, hload⟩ := load64_top (b := Pencoded.val.val) (i := 8) (by omega)
  rw [hload]
  show low + 2 ^ 56 * (Pencoded.val.val.getD 15 0).toNat < 2 ^ 63
  omega

/-- `copyMem(P->y, Pencoded, 32); P->y[1][1] &= 0x7FFFFFFFFFFFFFFF;`. -/
def decodeY (Pencoded : Encoded) : F2elm :=
  let b := Pencoded.val.val
  .ofWords (load64 b 0) (load64 b 8) (load64 b 16) (load64 b 24 &&& 0x7FFFFFFFFFFFFFFF)
    (value_le_of_high_lt (load64_eight_lt Pencoded))
    (value_le_of_high_lt (by
      rw [toNat_and_low63]
      exact Nat.mod_lt _ (by decide)))

/-- The numerator and the denominator of x^2, as `decode` combines them: the norm of the
denominator `t0`, and the components `t1`, `t2` of the numerator times its conjugate. -/
def decodeRatio (build : Build) (y : F2elm) : Felm × Felm × Felm :=
  let u := fp2sqr1271 build y
  let v := fp2mul1271 build u parameterD
  let u := fp2sub1271 u .one
  let v := fp2add1271 v .one
  let t0 := fpsqr1271 build v.c0
  let t1 := fpsqr1271 build v.c1
  let t0 := fpadd1271 t0 t1
  let t1 := fpmul1271 build u.c0 v.c0
  let t2 := fpmul1271 build u.c1 v.c1
  let t1 := fpadd1271 t1 t2
  let t2 := fpmul1271 build u.c1 v.c0
  let t3 := fpmul1271 build u.c0 v.c1
  let t2 := fpsub1271 t2 t3
  (t0, t1, t2)

/-- Twice the sum, or the difference when the sum is 0, of `t1` and the root of the norm of
`t1 + t2 i`. -/
def decodeT (build : Build) (t1 t2 : Felm) : Felm :=
  let t3 := fpsqr1271 build t1
  let t4 := fpsqr1271 build t2
  let t3 := fpadd1271 t3 t4
  let t3 := sqrn build 125 t3
  let t := fpadd1271 t1 t3
  let t := mod1271 t
  let t := if t.isZero then fpsub1271 t1 t3 else t
  fpadd1271 t t

/-- The square root: x up to its sign. -/
def decodeRoot (build : Build) (t0 t t2 : Felm) : F2elm :=
  let t3 := fpsqr1271 build t0
  let t3 := fpmul1271 build t0 t3
  let t3 := fpmul1271 build t t3
  let r := fpexp1251 build t3
  let t3 := fpmul1271 build t0 r
  let x0 := fpmul1271 build t t3
  let t1 := fpsqr1271 build x0
  let t1 := fpmul1271 build t0 t1
  let x0 := fphalf1271 x0
  let x1 := fpmul1271 build t2 t3
  let t := fpsub1271 t t1
  let t := mod1271 t
  if t.isZero then ⟨x0, x1⟩ else ⟨x1, x0⟩

/-- The bit of x that the encoding keeps: bit 126 of the first component, or of the second
when the first is zero. -/
def signBit (x : F2elm) : UInt64 := (if x.c0.isZero then x.c1 else x.c0).limbs.2 >>> 62

/-- The x coordinate with the sign that the encoding asks for. -/
def decodeX (build : Build) (Pencoded : Encoded) : F2elm :=
  let (t0, t1, t2) := decodeRatio build (decodeY Pencoded)
  let x := decodeRoot build t0 (decodeT build t1 t2) t2
  let x : F2elm := ⟨mod1271 x.c0, x.c1⟩
  if (Pencoded.val.byte 31 >>> 7).toUInt64 ≠ signBit x then fp2neg1271 x else x

/-- `decode`: none is `FALSE`. -/
def decode (build : Build) (Pencoded : Encoded) : Option (PointAffine F2elm) :=
  let P : PointAffine F2elm := ⟨decodeX build Pencoded, decodeY Pencoded⟩
  let R := pointSetup build.ops P
  if eccPointValidate build R then some P
  else
    let R := { R with x := build.ops.fpneg1271 R.x }
    let P := { P with x := R.x }
    if eccPointValidate build R then some P else none

/-! ## The field elements behind a decoded point -/

/-- The curve parameter d. -/
abbrev curveD : Fp2 := parameterD.toFp2

/-- `decodeRatio` over the field: for u = y^2 - 1 and v = d y^2 + 1 the norm of v and the
components of u times the conjugate of v. -/
def ratioFp (y : Fp2) : Fp × Fp × Fp :=
  let u := y * y - 1
  let v := y * y * curveD + 1
  (v.re * v.re + v.im * v.im, u.re * v.re + u.im * v.im, u.im * v.re - u.re * v.im)

/-- `decodeT` over the field. -/
def tFp (a b : Fp) : Fp :=
  let s := (a * a + b * b) ^ 2 ^ 125
  let t := if a + s = 0 then a - s else a + s
  t + t

/-- `decodeRoot` over the field: with `t = tFp a b` a square root of (a + b i) / n. -/
def rootFp (n t b : Fp) : Fp2 :=
  let w := n * (t * (n * (n * n))) ^ (2 ^ 125 - 1)
  let x0 := t * w
  if t - n * (x0 * x0) = 0 then ⟨x0 / 2, b * w⟩ else ⟨b * w, x0 / 2⟩

theorem toFp_decodeRatio (build : Build) (y : F2elm) :
    ((decodeRatio build y).1.toFp, (decodeRatio build y).2.1.toFp, (decodeRatio build y).2.2.toFp)
      = ratioFp y.toFp2 := by
  have hre : ∀ a : F2elm, a.c0.toFp = a.toFp2.re := fun _ => rfl
  have him : ∀ a : F2elm, a.c1.toFp = a.toFp2.im := fun _ => rfl
  simp only [decodeRatio, toFp_fpadd1271, toFp_fpsub1271, toFp_fpmul1271, toFp_fpsqr1271, hre, him,
    toFp2_fp2sub1271, toFp2_fp2add1271, toFp2_fp2mul1271, toFp2_fp2sqr1271, toFp2_one]
  rfl

theorem toFp_decodeT (build : Build) (t1 t2 : Felm) :
    (decodeT build t1 t2).toFp = tFp t1.toFp t2.toFp := by
  simp only [decodeT, tFp, mod1271_eq, Felm.isZero_ofFp, decide_eq_true_eq, toFp_fpadd1271,
    toFp_fpsub1271, toFp_fpsqr1271, toFp_sqrn, apply_ite Felm.toFp, Felm.toFp_ofFp]

theorem toFp2_decodeRoot (build : Build) (t0 t t2 : Felm) :
    (decodeRoot build t0 t t2).toFp2 = rootFp t0.toFp t.toFp t2.toFp := by
  simp only [decodeRoot, rootFp, mod1271_eq, Felm.isZero_ofFp, decide_eq_true_eq, toFp_fpsub1271,
    toFp_fpmul1271, toFp_fpsqr1271, toFp_fpexp1251, toFp_fphalf1271, apply_ite F2elm.toFp2,
    toFp2_mk]

/-- The square root that `decode` finds for y. -/
def rootOfY (y : Fp2) : Fp2 :=
  let (n, a, b) := ratioFp y
  rootFp n (tFp a b) b

/-- The sign of a field element with reduced components. -/
def signFp2 (x : Fp2) : UInt64 := signBit (.ofFp2 x)

theorem signBit_congr {x y : F2elm} (h0 : x.c0 = y.c0) (h1 : x.c0.isZero → x.c1 = y.c1) :
    signBit x = signBit y := by
  rw [signBit, signBit, ← h0]
  split
  · rename_i hzero
    rw [h1 hzero]
  · rfl

/-- A second component that is not reduced matters only when x is 0. -/
theorem signBit_eq {x : F2elm} (hx : x.toFp2 ≠ 0) :
    signBit ⟨mod1271 x.c0, x.c1⟩ = signFp2 x.toFp2 := by
  apply signBit_congr (mod1271_eq x.c0)
  intro hzero
  have h0 : x.c0.toFp = 0 := by
    rw [mod1271_eq, Felm.isZero_ofFp] at hzero
    exact of_decide_eq_true hzero
  have h1 : x.c1.toFp ≠ 0 := fun h1 => hx (Fp2.ext h0 h1)
  exact (Felm.ofFp_toFp h1).symm

/-- **The x coordinate that `decode` finds, over the field.** -/
theorem toFp2_decodeX (build : Build) (Pencoded : Encoded) :
    (decodeX build Pencoded).toFp2 =
      let x := rootOfY (decodeY Pencoded).toFp2
      if (Pencoded.val.byte 31 >>> 7).toUInt64 ≠ signFp2 x then -x else x := by
  have hratio := toFp_decodeRatio build (decodeY Pencoded)
  rcases hr : decodeRatio build (decodeY Pencoded) with ⟨t0, t1, t2⟩
  rw [hr] at hratio
  have hroot : (decodeRoot build t0 (decodeT build t1 t2) t2).toFp2
      = rootOfY (decodeY Pencoded).toFp2 := by
    rw [toFp2_decodeRoot, toFp_decodeT, rootOfY, ← hratio]
  have hmod : ∀ x : F2elm, (⟨mod1271 x.c0, x.c1⟩ : F2elm).toFp2 = x.toFp2 := by
    intro x
    rw [toFp2_mk, toFp_mod1271]
    rfl
  simp only [decodeX, hr, apply_ite F2elm.toFp2, toFp2_fp2neg1271, hmod, hroot]
  by_cases hzero : rootOfY (decodeY Pencoded).toFp2 = 0
  · rw [hzero, neg_zero, ite_self, ite_self]
  · rw [signBit_eq (by rw [hroot]; exact hzero), hroot]

/-! ## What validation decides -/

/-- The left side less the right side of the curve equation -x^2 + y^2 = 1 + d x^2 y^2. -/
def residualFp2 (x y : Fp2) : Fp2 := y * y - x * x - (y * y * (x * x) * curveD + 1)

theorem toFp2_curveResidual (build : Build) (x y : F2elm) :
    (curveResidual build x y).toFp2 = residualFp2 x.toFp2 y.toFp2 := by
  simp only [curveResidual, residualFp2, toFp2_fp2sub1271, toFp2_fp2add1271, toFp2_fp2mul1271,
    toFp2_fp2sqr1271, toFp2_one]

/-- All ones is no field element. -/
theorem isZeroOrOnes_iff {a : Felm} : isZeroOrOnes a ↔ a.value = 0 := by
  have hhigh := high_lt a.le
  have hones : ((a.limbs.1 + 1) ||| (a.limbs.2 + 1) == 0) = false := by
    rw [beq_eq_false_iff_ne, Ne, UInt64.or_eq_zero_iff]
    rintro ⟨-, h⟩
    rw [← UInt64.toNat_inj, UInt64.toNat_add] at h
    change (a.limbs.2.toNat + 1) % 2 ^ 64 = 0 at h
    omega
  rw [isZeroOrOnes, hones, Bool.or_false, beq_iff_eq, ← Felm.isZero_iff, Felm.isZero,
    Bool.and_eq_true, beq_iff_eq, beq_iff_eq, UInt64.or_eq_zero_iff]

/-- A difference is p only from the second zero to the first. -/
theorem value_of_fpsub1271_eq_p {a b : Felm} (h : (fpsub1271 a b).value = p1271) :
    a.value = p1271 ∧ b.value = 0 := by
  have ha := a.value_le
  have hb := b.value_le
  rw [value_fpsub1271] at h
  split at h
  · omega
  · omega

theorem value_of_fpadd1271_eq_zero {a b : Felm} (h : (fpadd1271 a b).value = 0) :
    a.value = 0 ∧ b.value = 0 := by
  rw [value_fpadd1271] at h
  split at h
  · omega
  · omega

theorem im_curveD_ne_zero : curveD.im ≠ 0 := by
  intro h
  rcases Felm.toFp_eq_zero_iff.mp h with h | h
  · exact absurd h (by decide)
  · exact absurd h (by decide)

/-- The square of a nonzero element that has no second component. -/
theorem re_mul_self_ne_zero {x : Fp2} (hx : x ≠ 0) (him : (x * x).im = 0) : (x * x).re ≠ 0 := by
  intro hre
  rw [im_mul, mul_comm x.im, ← two_mul] at him
  rw [re_mul] at hre
  rcases mul_eq_zero.mp him with h | h
  · exact two_ne_zero_fp h
  · rcases mul_eq_zero.mp h with h | h
    · rw [h, mul_zero, zero_sub, neg_eq_zero, mul_self_eq_zero] at hre
      exact hx (Fp2.ext h hre)
    · rw [h, mul_zero, sub_zero, mul_self_eq_zero] at hre
      exact hx (Fp2.ext hre h)

/-- For nonzero x and y the squares and d x^2 y^2 do not all lose their second component. -/
theorem im_ne_zero {x y : Fp2} (hx : x ≠ 0) (hy : y ≠ 0) (hxx : (x * x).im = 0)
    (hyy : (y * y).im = 0) : (y * y * (x * x) * curveD).im ≠ 0 := by
  have him : (y * y * (x * x) * curveD).im = (y * y).re * (x * x).re * curveD.im := by
    rw [im_mul, im_mul, re_mul (y * y), hxx, hyy]
    ring
  rw [him]
  exact mul_ne_zero (mul_ne_zero (re_mul_self_ne_zero hy hyy) (re_mul_self_ne_zero hx hxx))
    im_curveD_ne_zero

/-- The second component of the residual is p only as p - 0, three times over. -/
theorem im_curveResidual_eq_p {build : Build} {x y : F2elm}
    (h : (curveResidual build x y).c1.value = p1271) :
    (fp2sqr1271 build y).c1.value = p1271 ∧ (fp2sqr1271 build x).c1.value = 0 ∧
      (fp2mul1271 build (fp2mul1271 build (fp2sqr1271 build y) (fp2sqr1271 build x))
        parameterD).c1.value = 0 := by
  obtain ⟨hleft, hright⟩ := value_of_fpsub1271_eq_p h
  obtain ⟨hyy, hxx⟩ := value_of_fpsub1271_eq_p hleft
  exact ⟨hyy, hxx, (value_of_fpadd1271_eq_zero hright).1⟩

/-- **Validation decides the curve equation, unless the residual has the second component p.**
The first component cannot be p: 1 has been added to the subtrahend. -/
theorem validXY_iff_ne (build : Build) (x y : F2elm) : validXY build x y ↔
    residualFp2 x.toFp2 y.toFp2 = 0 ∧ (curveResidual build x y).c1.value ≠ p1271 := by
  rw [validXY, Bool.and_eq_true, isZeroOrOnes_iff, isZeroOrOnes_iff, ← toFp2_curveResidual build]
  constructor
  · rintro ⟨h0, h1⟩
    refine ⟨Fp2.ext (Felm.toFp_eq_zero_iff.mpr (.inl h0)) (Felm.toFp_eq_zero_iff.mpr (.inl h1)), ?_⟩
    rw [h1]
    decide
  · rintro ⟨h, hne⟩
    have hre : (curveResidual build x y).c0.toFp = 0 := congrArg (·.re) h
    have him : (curveResidual build x y).c1.toFp = 0 := congrArg (·.im) h
    constructor
    · rcases Felm.toFp_eq_zero_iff.mp hre with h0 | h0
      · exact h0
      · have hone := (value_of_fpadd1271_eq_zero (value_of_fpsub1271_eq_p h0).2).2
        exact absurd hone (by decide)
    · exact (Felm.toFp_eq_zero_iff.mp him).resolve_right hne

/-- **Validation decides the curve equation for nonzero coordinates, in both builds.** A
component of the residual could only be p where x or y is 0. -/
theorem validXY_iff (build : Build) {x y : F2elm} (hx : x.toFp2 ≠ 0) (hy : y.toFp2 ≠ 0) :
    validXY build x y ↔ residualFp2 x.toFp2 y.toFp2 = 0 := by
  rw [validXY_iff_ne, and_iff_left]
  intro him
  obtain ⟨hyy, hxx, hdxy⟩ := im_curveResidual_eq_p him
  have hyy' : (y.toFp2 * y.toFp2).im = 0 := by
    rw [← toFp2_fp2sqr1271 build]
    exact Felm.toFp_eq_zero_iff.mpr (.inr hyy)
  have hxx' : (x.toFp2 * x.toFp2).im = 0 := by
    rw [← toFp2_fp2sqr1271 build]
    exact Felm.toFp_eq_zero_iff.mpr (.inl hxx)
  have hdxy' : (y.toFp2 * y.toFp2 * (x.toFp2 * x.toFp2) * curveD).im = 0 := by
    rw [← toFp2_fp2sqr1271 build, ← toFp2_fp2sqr1271 build, ← toFp2_fp2mul1271 build,
      ← toFp2_fp2mul1271 build]
    exact Felm.toFp_eq_zero_iff.mpr (.inl hdxy)
  exact absurd hdxy' (im_ne_zero hx hy hxx' hyy')

end ZkQuorum.Crypto
