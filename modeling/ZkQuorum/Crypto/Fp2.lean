import ZkQuorum.Crypto.Felm
import Mathlib.Algebra.QuadraticAlgebra.Basic

/-!
# GF(p^2) in the two builds (crypto/src/riscv_fourq_verify.c)

The group operations of the source are written in a handful of operations on
`f2elm_t`. `F2Ops` is that interface: `Build.ops` are the operations of a build and
`fp2Ops` those of the field GF(p)[i]/(i^2 + 1). **`toFp2_hom`** says that reading an
`f2elm_t` as a field element commutes with all of them, in both builds.
-/

namespace ZkQuorum.Crypto

/-- GF(p)[i]/(i^2 + 1). -/
abbrev Fp2 := QuadraticAlgebra Fp (-1) 0

/-- A `f2elm_t`. -/
structure F2elm where
  c0 : Felm
  c1 : Felm
deriving DecidableEq

/-- The operations that the group operations are written in. -/
structure F2Ops (α : Type) where
  fp2add1271 : α → α → α
  fp2sub1271 : α → α → α
  fp2mul1271 : α → α → α
  fp2sqr1271 : α → α
  fp2neg1271 : α → α
  /-- `fpneg1271` of the second component. -/
  fpneg1271 : α → α
  /-- A constant of the source. -/
  const : F2elm → α

namespace F2elm

/-- The field element that an `f2elm_t` stands for. -/
def toFp2 (a : F2elm) : Fp2 := ⟨a.c0.toFp, a.c1.toFp⟩

/-- The representative with both components below p. -/
def ofFp2 (x : Fp2) : F2elm := ⟨Felm.ofFp x.re, Felm.ofFp x.im⟩

/-- The constant 0. -/
def zero : F2elm := ⟨.zero, .zero⟩

/-- The constant 1, `ONE`. -/
def one : F2elm := ⟨.one, .zero⟩

/-- A constant of the source, from its four words. -/
def ofWords (a0 a1 b0 b1 : UInt64) (ha : Limbs.value (a0, a1) ≤ p1271 := by decide)
    (hb : Limbs.value (b0, b1) ≤ p1271 := by decide) : F2elm :=
  ⟨⟨(a0, a1), ha⟩, ⟨(b0, b1), hb⟩⟩

end F2elm

/-! ## The operations of the builds -/

/-- `fp2add1271`. -/
def fp2add1271 (a b : F2elm) : F2elm := ⟨fpadd1271 a.c0 b.c0, fpadd1271 a.c1 b.c1⟩

/-- `fp2sub1271`. -/
def fp2sub1271 (a b : F2elm) : F2elm := ⟨fpsub1271 a.c0 b.c0, fpsub1271 a.c1 b.c1⟩

/-- `fp2neg1271`. -/
def fp2neg1271 (a : F2elm) : F2elm := ⟨fpneg1271 a.c0, fpneg1271 a.c1⟩

/-- `zkq_fp2mul1271`: the product with both components below p. -/
def zkqFp2mul1271 (a b : F2elm) : F2elm := F2elm.ofFp2 (a.toFp2 * b.toFp2)

/-- `fp2mul1271`. -/
def fp2mul1271 (build : Build) (a b : F2elm) : F2elm :=
  match build with
  | .bigint2 => zkqFp2mul1271 a b
  | .portable =>
    let t1 := fpmul1271 build a.c0 b.c0
    let t2 := fpmul1271 build a.c1 b.c1
    let t3 := fpadd1271 a.c0 a.c1
    let t4 := fpadd1271 b.c0 b.c1
    let c0 := fpsub1271 t1 t2
    let t3 := fpmul1271 build t3 t4
    let t3 := fpsub1271 t3 t1
    let c1 := fpsub1271 t3 t2
    ⟨c0, c1⟩

/-- `fp2sqr1271`. -/
def fp2sqr1271 (build : Build) (a : F2elm) : F2elm :=
  match build with
  | .bigint2 => zkqFp2mul1271 a a
  | .portable =>
    let t1 := fpadd1271 a.c0 a.c1
    let t2 := fpsub1271 a.c0 a.c1
    let t3 := fpmul1271 build a.c0 a.c1
    let c0 := fpmul1271 build t1 t2
    let c1 := fpadd1271 t3 t3
    ⟨c0, c1⟩

/-- The operations as a build compiles them. -/
def Build.ops (build : Build) : F2Ops F2elm where
  fp2add1271 := fp2add1271
  fp2sub1271 := fp2sub1271
  fp2mul1271 := fp2mul1271 build
  fp2sqr1271 := fp2sqr1271 build
  fp2neg1271 := fp2neg1271
  fpneg1271 a := ⟨a.c0, fpneg1271 a.c1⟩
  const a := a

/-! ## The operations of the field -/

/-- The field operations behind the interface. -/
def fp2Ops : F2Ops Fp2 where
  fp2add1271 x y := x + y
  fp2sub1271 x y := x - y
  fp2mul1271 x y := x * y
  fp2sqr1271 x := x * x
  fp2neg1271 x := -x
  fpneg1271 x := ⟨x.re, -x.im⟩
  const := F2elm.toFp2

/-- A map that commutes with the operations. -/
structure F2Hom {α β : Type} (o : F2Ops α) (o' : F2Ops β) (f : α → β) : Prop where
  map_add : ∀ x y, f (o.fp2add1271 x y) = o'.fp2add1271 (f x) (f y)
  map_sub : ∀ x y, f (o.fp2sub1271 x y) = o'.fp2sub1271 (f x) (f y)
  map_mul : ∀ x y, f (o.fp2mul1271 x y) = o'.fp2mul1271 (f x) (f y)
  map_sqr : ∀ x, f (o.fp2sqr1271 x) = o'.fp2sqr1271 (f x)
  map_neg : ∀ x, f (o.fp2neg1271 x) = o'.fp2neg1271 (f x)
  map_conj : ∀ x, f (o.fpneg1271 x) = o'.fpneg1271 (f x)
  map_const : ∀ a, f (o.const a) = o'.const a

@[ext]
theorem Fp2.ext {x y : Fp2} (hre : x.re = y.re) (him : x.im = y.im) : x = y :=
  QuadraticAlgebra.ext hre him

theorem re_mul (x y : Fp2) : (x * y).re = x.re * y.re - x.im * y.im := by
  rw [QuadraticAlgebra.re_mul]
  ring

theorem im_mul (x y : Fp2) : (x * y).im = x.re * y.im + x.im * y.re := by
  rw [QuadraticAlgebra.im_mul]
  ring

theorem toFp2_ofFp2 (x : Fp2) : (F2elm.ofFp2 x).toFp2 = x :=
  Fp2.ext (Felm.toFp_ofFp x.re) (Felm.toFp_ofFp x.im)

theorem toFp2_mk (a b : Felm) : (⟨a, b⟩ : F2elm).toFp2 = ⟨a.toFp, b.toFp⟩ := rfl

@[simp]
theorem toFp2_fp2add1271 (a b : F2elm) : (fp2add1271 a b).toFp2 = a.toFp2 + b.toFp2 :=
  Fp2.ext (toFp_fpadd1271 a.c0 b.c0) (toFp_fpadd1271 a.c1 b.c1)

@[simp]
theorem toFp2_fp2sub1271 (a b : F2elm) : (fp2sub1271 a b).toFp2 = a.toFp2 - b.toFp2 :=
  Fp2.ext (toFp_fpsub1271 a.c0 b.c0) (toFp_fpsub1271 a.c1 b.c1)

@[simp]
theorem toFp2_fp2neg1271 (a : F2elm) : (fp2neg1271 a).toFp2 = -a.toFp2 :=
  Fp2.ext (toFp_fpneg1271 a.c0) (toFp_fpneg1271 a.c1)

@[simp]
theorem toFp2_one : F2elm.one.toFp2 = 1 := Fp2.ext toFp_one toFp_zero

@[simp]
theorem toFp2_fp2mul1271 (build : Build) (a b : F2elm) :
    (fp2mul1271 build a b).toFp2 = a.toFp2 * b.toFp2 := by
  cases build with
  | bigint2 => exact toFp2_ofFp2 _
  | portable =>
    apply Fp2.ext
    · rw [re_mul]
      simp only [fp2mul1271, F2elm.toFp2, toFp_fpsub1271, toFp_fpmul1271]
    · rw [im_mul]
      simp only [fp2mul1271, F2elm.toFp2, toFp_fpsub1271, toFp_fpadd1271, toFp_fpmul1271]
      ring

@[simp]
theorem toFp2_fp2sqr1271 (build : Build) (a : F2elm) :
    (fp2sqr1271 build a).toFp2 = a.toFp2 * a.toFp2 := by
  cases build with
  | bigint2 => exact toFp2_ofFp2 _
  | portable =>
    apply Fp2.ext
    · rw [re_mul]
      simp only [fp2sqr1271, F2elm.toFp2, toFp_fpsub1271, toFp_fpadd1271, toFp_fpmul1271]
      ring
    · rw [im_mul]
      simp only [fp2sqr1271, F2elm.toFp2, toFp_fpadd1271, toFp_fpmul1271]
      ring

/-- **Both builds compute in GF(p^2).** -/
theorem toFp2_hom (build : Build) : F2Hom build.ops fp2Ops F2elm.toFp2 where
  map_add := toFp2_fp2add1271
  map_sub := toFp2_fp2sub1271
  map_mul := toFp2_fp2mul1271 build
  map_sqr := toFp2_fp2sqr1271 build
  map_neg := toFp2_fp2neg1271
  map_conj a := Fp2.ext rfl (toFp_fpneg1271 a.c1)
  map_const _ := rfl

end ZkQuorum.Crypto
