import ZkQuorum.Crypto.Multiples
import ZkQuorum.Lib.QuarticCurve

/-!
# The endomorphisms as fractions (crypto/src/riscv_fourq_verify.c)

`ecc_phi` and `ecc_psi` depend on a point (x, y) of the curve only through s = x y and
p = x^2 + y^2, which satisfy p^2 = (1 + d s^2)^2 + 4 s^2. In s and p the stages of the source
lose their common factors, and the image of a point is a pair of fractions of small weight.

The field elements of the first stages are conjugated in the source. Here s and p stand for the
conjugates, and so do the constants of the stages before the conjugation (`conjConst`).

The statement that an endomorphism is additive is in these terms the vanishing of two
expressions (`Formula.differenceX`, `Formula.differenceY`). They are computed over as many values
of s as their weights require (**`differences_phi`**, **`differences_psi`**).
-/

namespace ZkQuorum.Crypto

open QuarticCurve

/-! ## Formulas -/

/-- s = S / E and p = P / E^2. -/
structure Jacobi (α : Type) where
  s : α
  p : α
  e : α

/-- x and y as fractions. -/
structure Fractions (α : Type) where
  xn : α
  xd : α
  yn : α
  yd : α

/-- A constant conjugated. -/
def F2elm.conj (a : F2elm) : F2elm := ⟨a.c0, fpneg1271 a.c1⟩

section Stages

variable {α : Type} [Add α] [Sub α] [Mul α] (c : F2elm → α)

/-- Constants before the conjugation. -/
def conjConst (a : F2elm) : α := c a.conj

/-- `ecc_tau`. -/
def Jacobi.tau (J : Jacobi α) : Fractions α :=
  let ee := J.e * J.e
  let m := c parameterD * (J.s * J.s)
  ⟨c ctau1 * (J.s * J.e), J.p, ee - m, ee + m⟩

/-- `ecc_delphidel`. -/
def Fractions.delphidel (F : Fractions α) : Fractions α :=
  let yy := F.yn * F.yn
  let yz := F.yn * F.yd
  let zz := F.yd * F.yd
  let t1 := c cphi1 * yz
  let t5 := yy + c cphi2 * zz
  let t3 := c cphi3 * yz
  let t4 := yy + c cphi4 * zz
  let y4 := yy * yy
  let y2 := yz * yz
  let y0 := zz * zz
  ⟨F.xn * (c cphi0 * ((t1 - t5) * (t1 + t5))), F.xd * ((t4 + t3) * (t4 - t3)),
    c cphi5 * (F.yd * (y4 + c cphi6 * y2 + c cphi7 * y0)),
    F.yn * (y4 + c cphi8 * y2 + c cphi9 * y0)⟩

/-- `ecc_delpsidel`. -/
def Fractions.delpsidel (F : Fractions α) : Fractions α :=
  let xx := F.xn * F.xn
  let zz := F.xd * F.xd
  ⟨c cpsi1 * (F.xn * F.xd * F.yd), F.yn * (xx + c cpsi2 * zz), xx + c cpsi3 * zz,
    c .zero - (xx + c cpsi4 * zz)⟩

/-- `ecc_tau_dual`. -/
def Fractions.tauDual (F : Fractions α) : Fractions α :=
  let a := F.yn * F.xd
  let b := F.xn * F.yd
  let z := F.xd * F.yd
  let aa := a * a
  let bb := b * b
  let zz := z * z
  let w := aa - bb
  ⟨c ctaudual1 * (a * b), zz + zz - w, w, aa + bb⟩

/-- The sum with a point (x, y). -/
def Fractions.plus (F : Fractions α) (B : PointAffine α) : Fractions α :=
  let e := c parameterD * (B.x * B.y) * (F.xn * F.yn)
  let z := F.xd * F.yd
  ⟨F.xn * F.yd * B.y + F.yn * F.xd * B.x, z + e, F.yn * F.xd * B.y + F.xn * F.yd * B.x, z - e⟩

/-- The sum of (s, p) with the coordinates of a point (x, y). -/
def Jacobi.plus (s p : α) (B : PointAffine α) : Jacobi α :=
  let s' := B.x * B.y
  let p' := B.x * B.x + B.y * B.y
  let e := c parameterD * (s * s')
  let ss := s * s'
  let m := (c .one + c parameterD * (s * s)) * (c .one + c parameterD * (s' * s'))
  ⟨s * p' + s' * p,
    (p * p' + (ss + ss + (ss + ss))) * (c .one + e * e) + (e * m + e * m),
    c .one - e * e⟩

/-- The right-hand side of the equation of s and p. -/
def quartic (s : α) : α :=
  let u := c .one + c parameterD * (s * s)
  u * u + (s + s) * (s + s)

theorem first_lt_entries : 0 < 64 := by decide

/-- The point that block j of the table is of. -/
def tablePoint (j : Fin 4) : PointAffine α :=
  let M := doubleScalarPoint j ⟨0, first_lt_entries⟩
  ⟨c half * (c M.xy - c M.yx), c half * (c M.xy + c M.yx)⟩

end Stages

section Map

variable {α β : Type} (f : α → β)

def Jacobi.map (J : Jacobi α) : Jacobi β := ⟨f J.s, f J.p, f J.e⟩

def Fractions.map (F : Fractions α) : Fractions β := ⟨f F.xn, f F.xd, f F.yn, f F.yd⟩

end Map

namespace Natural

variable {α β : Type} [Add α] [Sub α] [Mul α] [Add β] [Sub β] [Mul β] {f : α → β}
  (h : Respects f) (c : F2elm → α)

include h

theorem map_tau (J : Jacobi α) : (J.tau c).map f = (J.map f).tau (fun a => f (c a)) := by
  simp only [Jacobi.tau, Jacobi.map, Fractions.map, h.map_add, h.map_sub, h.map_mul]

theorem map_delphidel (F : Fractions α) :
    (F.delphidel c).map f = (F.map f).delphidel (fun a => f (c a)) := by
  simp only [Fractions.delphidel, Fractions.map, h.map_add, h.map_sub, h.map_mul]

theorem map_delpsidel (F : Fractions α) :
    (F.delpsidel c).map f = (F.map f).delpsidel (fun a => f (c a)) := by
  simp only [Fractions.delpsidel, Fractions.map, h.map_add, h.map_sub, h.map_mul]

theorem map_tauDual (F : Fractions α) :
    (F.tauDual c).map f = (F.map f).tauDual (fun a => f (c a)) := by
  simp only [Fractions.tauDual, Fractions.map, h.map_add, h.map_sub, h.map_mul]

theorem map_plus (F : Fractions α) (B : PointAffine α) :
    (F.plus c B).map f = (F.map f).plus (fun a => f (c a)) (B.map f) := by
  simp only [Fractions.plus, Fractions.map, PointAffine.map, h.map_add, h.map_sub, h.map_mul]

theorem map_jacobi_plus (s p : α) (B : PointAffine α) :
    (Jacobi.plus c s p B).map f = Jacobi.plus (fun a => f (c a)) (f s) (f p) (B.map f) := by
  simp only [Jacobi.plus, Jacobi.map, PointAffine.map, h.map_add, h.map_sub, h.map_mul]

theorem map_quartic (s : α) : f (quartic c s) = quartic (fun a => f (c a)) (f s) := by
  simp only [quartic, h.map_add, h.map_mul]

theorem map_tablePoint (j : Fin 4) :
    (tablePoint c j).map f = tablePoint (fun a => f (c a)) j := by
  simp only [tablePoint, PointAffine.map, h.map_add, h.map_sub, h.map_mul]

end Natural

/-! ## The two endomorphisms -/

/-- An endomorphism in terms of s and p. -/
structure Formula where
  run : {α : Type} → [Add α] → [Sub α] → [Mul α] → (F2elm → α) → Jacobi α → Fractions α
  natural : ∀ {α β : Type} [Add α] [Sub α] [Mul α] [Add β] [Sub β] [Mul β] {f : α → β},
    Respects f → ∀ c J, (run c J).map f = run (fun a => f (c a)) (J.map f)

/-- `ecc_phi`: the conjugation follows `ecc_delphidel`. -/
def phiFormula : Formula where
  run c J := ((J.tau (conjConst c)).delphidel (conjConst c)).tauDual c
  natural h c J := by
    rw [Natural.map_tauDual h, Natural.map_delphidel h, Natural.map_tau h]
    rfl

/-- `ecc_psi`: the conjugation precedes `ecc_delpsidel`. -/
def psiFormula : Formula where
  run c J := ((J.tau (conjConst c)).delpsidel c).tauDual c
  natural h c J := by
    rw [Natural.map_tauDual h, Natural.map_delpsidel h, Natural.map_tau h]
    rfl

namespace Formula

variable (F : Formula)

theorem first_lt_blocks : 0 < 4 := by decide

/-- The image of (s, p) plus the base point. -/
def imageOfSum {α : Type} [Add α] [Sub α] [Mul α] (c : F2elm → α) (s p : α) : Fractions α :=
  F.run c (Jacobi.plus (conjConst c) s p (tablePoint (conjConst c) ⟨0, first_lt_blocks⟩))

/-- The image of (s, p), plus the first point of block j. -/
def sumOfImages {α : Type} [Add α] [Sub α] [Mul α] (j : Fin 4) (c : F2elm → α) (s p : α) :
    Fractions α :=
  (F.run c ⟨s, p, c .one⟩).plus c (tablePoint c j)

theorem natural_imageOfSum {α β : Type} [Add α] [Sub α] [Mul α] [Add β] [Sub β] [Mul β]
    {f : α → β} (h : Respects f) (c : F2elm → α) (s p : α) :
    (F.imageOfSum c s p).map f = F.imageOfSum (fun a => f (c a)) (f s) (f p) := by
  rw [imageOfSum, F.natural h, Natural.map_jacobi_plus h, Natural.map_tablePoint h]
  rfl

theorem natural_sumOfImages {α β : Type} [Add α] [Sub α] [Mul α] [Add β] [Sub β] [Mul β]
    {f : α → β} (h : Respects f) (j : Fin 4) (c : F2elm → α) (s p : α) :
    (F.sumOfImages j c s p).map f = F.sumOfImages j (fun a => f (c a)) (f s) (f p) := by
  rw [sumOfImages, Natural.map_plus h, F.natural h, Natural.map_tablePoint h]
  rfl

/-- The difference of the two x coordinates, times the denominators. -/
def differenceX (j : Fin 4) : Expression F2elm where
  run c s p :=
    let L := F.imageOfSum c s p
    let R := F.sumOfImages j c s p
    L.xn * R.xd - R.xn * L.xd
  natural {_ _ _ _ _ _ _ _ f} h c s p := by
    rw [← F.natural_imageOfSum h, ← F.natural_sumOfImages h]
    simp only [h.map_sub, h.map_mul, Fractions.map]

/-- The difference of the two y coordinates, times the denominators. -/
def differenceY (j : Fin 4) : Expression F2elm where
  run c s p :=
    let L := F.imageOfSum c s p
    let R := F.sumOfImages j c s p
    L.yn * R.yd - R.yn * L.yd
  natural {_ _ _ _ _ _ _ _ f} h c s p := by
    rw [← F.natural_imageOfSum h, ← F.natural_sumOfImages h]
    simp only [h.map_sub, h.map_mul, Fractions.map]

end Formula

/-! ## The computation -/

/-- A pair of numbers for a field element. -/
def Residue : Type := Nat × Nat
deriving DecidableEq

namespace Residue

instance : Add Residue := ⟨pairOps.fp2add1271⟩

instance : Sub Residue := ⟨pairOps.fp2sub1271⟩

instance : Mul Residue := ⟨pairOps.fp2mul1271⟩

instance : Zero Residue := ⟨((0, 0) : Nat × Nat)⟩

instance : One Residue := ⟨((1, 0) : Nat × Nat)⟩

/-- A constant of the source. -/
def const (a : F2elm) : Residue := pairOps.const a

/-- The i-th value of s. -/
def sample (i : Nat) : Residue := (i, 0)

end Residue

/-- Both differences vanish over the first n + 1 values of s. -/
def Formula.Checked (F : Formula) (j : Fin 4) (n : Nat) : Prop :=
  ∀ i : Fin (n + 1),
    Over.eval (quartic (conjConst Residue.const) (Residue.sample i)) (F.differenceX j) Residue.const
        (Residue.sample i) = 0 ∧
      Over.eval (quartic (conjConst Residue.const) (Residue.sample i)) (F.differenceY j)
        Residue.const (Residue.sample i) = 0

instance (F : Formula) (j : Fin 4) (n : Nat) : Decidable (F.Checked j n) := by
  unfold Formula.Checked
  infer_instance

theorem weight_phi : (phiFormula.differenceX 1).weight ≤ 160 ∧
    (phiFormula.differenceY 1).weight ≤ 160 := by decide +kernel

theorem weight_psi : (psiFormula.differenceX 2).weight ≤ 80 ∧
    (psiFormula.differenceY 2).weight ≤ 80 := by decide +kernel

theorem differences_psi : psiFormula.Checked 2 80 := by decide +kernel

theorem differences_phi : phiFormula.Checked 1 160 := by decide +kernel

end ZkQuorum.Crypto
