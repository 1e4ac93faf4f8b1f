import ZkQuorum.Crypto.Fp2

/-!
# Group operations of FourQ (crypto/src/riscv_fourq_verify.c)

The point operations of the source, over any `F2Ops`: a build of the port, or the field
itself. A struct that a routine updates in place is rebuilt, one `let` for each
assignment. Each operation commutes with every map of the operations below it
(`map_...`), so what it computes can be read in the field.
-/

namespace ZkQuorum.Crypto

/-- `point_affine`. -/
structure PointAffine (α : Type) where
  x : α
  y : α
deriving DecidableEq

/-- `point_extproj`: (X : Y : Z) and two factors Ta, Tb of T. -/
structure PointExtproj (α : Type) where
  x : α
  y : α
  z : α
  ta : α
  tb : α

/-- `point_extproj_precomp`: (X + Y, Y - X, 2Z, 2dT), or (X + Y, Y - X, Z, T). -/
structure PointExtprojPrecomp (α : Type) where
  xy : α
  yx : α
  z2 : α
  t2 : α

/-- `point_precomp`: (x + y, y - x, 2dt). -/
structure PointPrecomp (α : Type) where
  xy : α
  yx : α
  t2 : α

section Map

variable {α β : Type} (f : α → β)

def PointAffine.map (P : PointAffine α) : PointAffine β := ⟨f P.x, f P.y⟩

def PointExtproj.map (P : PointExtproj α) : PointExtproj β :=
  ⟨f P.x, f P.y, f P.z, f P.ta, f P.tb⟩

def PointExtprojPrecomp.map (P : PointExtprojPrecomp α) : PointExtprojPrecomp β :=
  ⟨f P.xy, f P.yx, f P.z2, f P.t2⟩

def PointPrecomp.map (P : PointPrecomp α) : PointPrecomp β := ⟨f P.xy, f P.yx, f P.t2⟩

end Map

/-! ## Constants -/

/-- `PARAMETER_d`. -/
def parameterD : F2elm :=
  .ofWords 0x0000000000000142 0x00000000000000E4 0xB3821488F1FC0C8D 0x5E472F846657E0FC

def ctau1 : F2elm := .ofWords 0x74DCD57CEBCE74C3 0x1964DE2C3AFAD20C 0x12 0x0C

def ctaudual1 : F2elm := .ofWords 0x9ECAA6D9DECDF034 0x4AA740EB23058652 0x11 0x7FFFFFFFFFFFFFF4

def cphi0 : F2elm := .ofWords 0xFFFFFFFFFFFFFFF7 0x05 0x4F65536CEF66F81A 0x2553A0759182C329

def cphi1 : F2elm := .ofWords 0x07 0x05 0x334D90E9E28296F9 0x62C8CAA0C50C62CF

def cphi2 : F2elm := .ofWords 0x15 0x0F 0x2C2CB7154F1DF391 0x78DF262B6C9B5C98

def cphi3 : F2elm := .ofWords 0x03 0x02 0x92440457A7962EA4 0x5084C6491D76342A

def cphi4 : F2elm := .ofWords 0x03 0x03 0xA1098C923AEC6855 0x12440457A7962EA4

def cphi5 : F2elm := .ofWords 0x0F 0x0A 0x669B21D3C5052DF3 0x459195418A18C59E

def cphi6 : F2elm := .ofWords 0x18 0x12 0xCD3643A78A0A5BE7 0x0B232A8314318B3C

def cphi7 : F2elm := .ofWords 0x23 0x18 0x66C183035F48781A 0x3963BC1C99E2EA1A

def cphi8 : F2elm := .ofWords 0xF0 0xAA 0x44E251582B5D0EF0 0x1F529F860316CBE5

def cphi9 : F2elm := .ofWords 0xBEF 0x870 0x14D3E48976E2505 0xFD52E9CFE00375B

def cpsi1 : F2elm := .ofWords 0xEDF07F4767E346EF 0x2AF99E9A83D54A02 0x13A 0xDE

def cpsi2 : F2elm := .ofWords 0x143 0xE4 0x4C7DEB770E03F372 0x21B8D07B99A81F03

def cpsi3 : F2elm := .ofWords 0x09 0x06 0x3A6E6ABE75E73A61 0x4CB26F161D7D6906

def cpsi4 : F2elm :=
  .ofWords 0xFFFFFFFFFFFFFFF6 0x7FFFFFFFFFFFFFF9 0xC59195418A18C59E 0x334D90E9E28296F9

/-! ## Operations -/

section Operations

variable {α : Type} (o : F2Ops α)

/-- `fp2addsub1271`: `2 a - b`. -/
def fp2addsub1271 (a b : α) : α :=
  let a := o.fp2add1271 a a
  o.fp2sub1271 a b

/-- `R1_to_R2`. -/
def r1ToR2 (P : PointExtproj α) : PointExtprojPrecomp α :=
  let t2 := o.fp2add1271 P.ta P.ta
  let xy := o.fp2add1271 P.x P.y
  let yx := o.fp2sub1271 P.y P.x
  let t2 := o.fp2mul1271 t2 P.tb
  let z2 := o.fp2add1271 P.z P.z
  let t2 := o.fp2mul1271 t2 (o.const parameterD)
  ⟨xy, yx, z2, t2⟩

/-- `R1_to_R3`. -/
def r1ToR3 (P : PointExtproj α) : PointExtprojPrecomp α :=
  let xy := o.fp2add1271 P.x P.y
  let yx := o.fp2sub1271 P.y P.x
  let t2 := o.fp2mul1271 P.ta P.tb
  ⟨xy, yx, P.z, t2⟩

/-- `eccdouble`. -/
def eccdouble (P : PointExtproj α) : PointExtproj α :=
  let t1 := o.fp2sqr1271 P.x
  let t2 := o.fp2sqr1271 P.y
  let x := o.fp2add1271 P.x P.y
  let tb := o.fp2add1271 t1 t2
  let t1 := o.fp2sub1271 t2 t1
  let ta := o.fp2sqr1271 x
  let t2 := o.fp2sqr1271 P.z
  let ta := o.fp2sub1271 ta tb
  let t2 := fp2addsub1271 o t2 t1
  let y := o.fp2mul1271 t1 tb
  let x := o.fp2mul1271 t2 ta
  let z := o.fp2mul1271 t1 t2
  ⟨x, y, z, ta, tb⟩

/-- `eccadd_core`. -/
def eccaddCore (P Q : PointExtprojPrecomp α) : PointExtproj α :=
  let z := o.fp2mul1271 P.t2 Q.t2
  let t1 := o.fp2mul1271 P.z2 Q.z2
  let x := o.fp2mul1271 P.xy Q.xy
  let y := o.fp2mul1271 P.yx Q.yx
  let t2 := o.fp2sub1271 t1 z
  let t1 := o.fp2add1271 t1 z
  let tb := o.fp2sub1271 x y
  let ta := o.fp2add1271 x y
  let x := o.fp2mul1271 tb t2
  let z := o.fp2mul1271 t1 t2
  let y := o.fp2mul1271 ta t1
  ⟨x, y, z, ta, tb⟩

/-- `eccadd`. -/
def eccadd (Q : PointExtprojPrecomp α) (P : PointExtproj α) : PointExtproj α :=
  let R := r1ToR3 o P
  eccaddCore o Q R

/-- `point_setup`. -/
def pointSetup (P : PointAffine α) : PointExtproj α := ⟨P.x, P.y, o.const .one, P.x, P.y⟩

/-- `eccmadd`. -/
def eccmadd (Q : PointPrecomp α) (P : PointExtproj α) : PointExtproj α :=
  let ta := o.fp2mul1271 P.ta P.tb
  let t1 := o.fp2add1271 P.z P.z
  let ta := o.fp2mul1271 ta Q.t2
  let z := o.fp2add1271 P.x P.y
  let tb := o.fp2sub1271 P.y P.x
  let t2 := o.fp2sub1271 t1 ta
  let t1 := o.fp2add1271 t1 ta
  let ta := o.fp2mul1271 Q.xy z
  let x := o.fp2mul1271 Q.yx tb
  let z := o.fp2mul1271 t1 t2
  let tb := o.fp2sub1271 ta x
  let ta := o.fp2add1271 ta x
  let x := o.fp2mul1271 tb t2
  let y := o.fp2mul1271 ta t1
  ⟨x, y, z, ta, tb⟩

/-- `ecc_tau`. -/
def eccTau (P : PointExtproj α) : PointExtproj α :=
  let t0 := o.fp2sqr1271 P.x
  let t1 := o.fp2sqr1271 P.y
  let x := o.fp2mul1271 P.x P.y
  let y := o.fp2sqr1271 P.z
  let z := o.fp2add1271 t0 t1
  let t0 := o.fp2sub1271 t1 t0
  let y := o.fp2add1271 y y
  let x := o.fp2mul1271 x t0
  let y := o.fp2sub1271 y t0
  let x := o.fp2mul1271 x (o.const ctau1)
  let y := o.fp2mul1271 y z
  let z := o.fp2mul1271 z t0
  { P with x, y, z }

/-- `ecc_tau_dual`. -/
def eccTauDual (P : PointExtproj α) : PointExtproj α :=
  let t0 := o.fp2sqr1271 P.x
  let ta := o.fp2sqr1271 P.z
  let t1 := o.fp2sqr1271 P.y
  let z := o.fp2add1271 ta ta
  let ta := o.fp2sub1271 t1 t0
  let t0 := o.fp2add1271 t0 t1
  let x := o.fp2mul1271 P.x P.y
  let z := o.fp2sub1271 z ta
  let tb := o.fp2mul1271 x (o.const ctaudual1)
  let y := o.fp2mul1271 z ta
  let x := o.fp2mul1271 tb t0
  let z := o.fp2mul1271 z t0
  ⟨x, y, z, ta, tb⟩

/-- `ecc_delphidel`. -/
def eccDelphidel (P : PointExtproj α) : PointExtproj α :=
  let t4 := o.fp2sqr1271 P.z
  let t3 := o.fp2mul1271 P.y P.z
  let t0 := o.fp2mul1271 t4 (o.const cphi4)
  let t2 := o.fp2sqr1271 P.y
  let t0 := o.fp2add1271 t0 t2
  let t1 := o.fp2mul1271 t3 (o.const cphi3)
  let t5 := o.fp2sub1271 t0 t1
  let t0 := o.fp2add1271 t0 t1
  let t0 := o.fp2mul1271 t0 P.z
  let t1 := o.fp2mul1271 t3 (o.const cphi1)
  let t0 := o.fp2mul1271 t0 t5
  let t5 := o.fp2mul1271 t4 (o.const cphi2)
  let t5 := o.fp2add1271 t2 t5
  let t6 := o.fp2sub1271 t1 t5
  let t1 := o.fp2add1271 t1 t5
  let t6 := o.fp2mul1271 t6 t1
  let t6 := o.fp2mul1271 t6 (o.const cphi0)
  let x := o.fp2mul1271 P.x t6
  let t6 := o.fp2sqr1271 t2
  let t2 := o.fp2sqr1271 t3
  let t3 := o.fp2sqr1271 t4
  let t1 := o.fp2mul1271 t2 (o.const cphi8)
  let t5 := o.fp2mul1271 t3 (o.const cphi9)
  let t1 := o.fp2add1271 t1 t6
  let t2 := o.fp2mul1271 t2 (o.const cphi6)
  let t3 := o.fp2mul1271 t3 (o.const cphi7)
  let t1 := o.fp2add1271 t1 t5
  let t2 := o.fp2add1271 t2 t3
  let t1 := o.fp2mul1271 t1 P.y
  let y := o.fp2add1271 t6 t2
  let x := o.fp2mul1271 x t1
  let y := o.fp2mul1271 y (o.const cphi5)
  let x := o.fpneg1271 x
  let y := o.fp2mul1271 y P.z
  let z := o.fp2mul1271 t0 t1
  let y := o.fp2mul1271 y t0
  let z := o.fpneg1271 z
  let y := o.fpneg1271 y
  { P with x, y, z }

/-- `ecc_delpsidel`. -/
def eccDelpsidel (P : PointExtproj α) : PointExtproj α :=
  let x := o.fpneg1271 P.x
  let z := o.fpneg1271 P.z
  let y := o.fpneg1271 P.y
  let t2 := o.fp2sqr1271 z
  let t0 := o.fp2sqr1271 x
  let x := o.fp2mul1271 x t2
  let z := o.fp2mul1271 t2 (o.const cpsi2)
  let t1 := o.fp2mul1271 t2 (o.const cpsi3)
  let t2 := o.fp2mul1271 t2 (o.const cpsi4)
  let z := o.fp2add1271 t0 z
  let t2 := o.fp2add1271 t0 t2
  let t1 := o.fp2add1271 t0 t1
  let t2 := o.fp2neg1271 t2
  let z := o.fp2mul1271 z y
  let x := o.fp2mul1271 x t2
  let y := o.fp2mul1271 t1 z
  let x := o.fp2mul1271 x (o.const cpsi1)
  let z := o.fp2mul1271 z t2
  { P with x, y, z }

/-- `ecc_psi`. -/
def eccPsi (P : PointExtproj α) : PointExtproj α := eccTauDual o (eccDelpsidel o (eccTau o P))

/-- `ecc_phi`. -/
def eccPhi (P : PointExtproj α) : PointExtproj α := eccTauDual o (eccDelphidel o (eccTau o P))

/-- `eccneg_extproj_precomp`. -/
def eccnegExtprojPrecomp (P : PointExtprojPrecomp α) : PointExtprojPrecomp α :=
  ⟨P.yx, P.xy, P.z2, o.fp2neg1271 P.t2⟩

/-- `eccneg_precomp`. -/
def eccnegPrecomp (P : PointPrecomp α) : PointPrecomp α := ⟨P.yx, P.xy, o.fp2neg1271 P.t2⟩

/-- `cofactor_clearing`: 392 R. -/
def cofactorClearing (R : PointExtproj α) : PointExtproj α :=
  let Q := r1ToR2 o R
  let R := eccdouble o R
  let R := eccadd o Q R
  let R := eccdouble o R
  let R := eccdouble o R
  let R := eccdouble o R
  let R := eccdouble o R
  let R := eccadd o Q R
  let R := eccdouble o R
  let R := eccdouble o R
  eccdouble o R

end Operations

/-! ## Maps of the operations -/

namespace F2Hom

variable {α β : Type} {o : F2Ops α} {o' : F2Ops β} {f : α → β} (h : F2Hom o o' f)

include h

theorem map_addsub (a b : α) : f (fp2addsub1271 o a b) = fp2addsub1271 o' (f a) (f b) := by
  simp only [fp2addsub1271, h.map_add, h.map_sub]

theorem map_r1ToR2 (P : PointExtproj α) : (r1ToR2 o P).map f = r1ToR2 o' (P.map f) := by
  simp only [r1ToR2, PointExtproj.map, PointExtprojPrecomp.map, h.map_add, h.map_sub, h.map_mul,
    h.map_const]

theorem map_r1ToR3 (P : PointExtproj α) : (r1ToR3 o P).map f = r1ToR3 o' (P.map f) := by
  simp only [r1ToR3, PointExtproj.map, PointExtprojPrecomp.map, h.map_add, h.map_sub, h.map_mul]

theorem map_eccdouble (P : PointExtproj α) : (eccdouble o P).map f = eccdouble o' (P.map f) := by
  simp only [eccdouble, PointExtproj.map, h.map_add, h.map_sub, h.map_mul, h.map_sqr,
    h.map_addsub]

theorem map_eccaddCore (P Q : PointExtprojPrecomp α) :
    (eccaddCore o P Q).map f = eccaddCore o' (P.map f) (Q.map f) := by
  simp only [eccaddCore, PointExtproj.map, PointExtprojPrecomp.map, h.map_add, h.map_sub,
    h.map_mul]

theorem map_eccadd (Q : PointExtprojPrecomp α) (P : PointExtproj α) :
    (eccadd o Q P).map f = eccadd o' (Q.map f) (P.map f) := by
  simp only [eccadd, h.map_eccaddCore, h.map_r1ToR3]

theorem map_pointSetup (P : PointAffine α) : (pointSetup o P).map f = pointSetup o' (P.map f) := by
  simp only [pointSetup, PointExtproj.map, PointAffine.map, h.map_const]

theorem map_eccmadd (Q : PointPrecomp α) (P : PointExtproj α) :
    (eccmadd o Q P).map f = eccmadd o' (Q.map f) (P.map f) := by
  simp only [eccmadd, PointExtproj.map, PointPrecomp.map, h.map_add, h.map_sub, h.map_mul]

theorem map_eccTau (P : PointExtproj α) : (eccTau o P).map f = eccTau o' (P.map f) := by
  simp only [eccTau, PointExtproj.map, h.map_add, h.map_sub, h.map_mul, h.map_sqr, h.map_const]

theorem map_eccTauDual (P : PointExtproj α) :
    (eccTauDual o P).map f = eccTauDual o' (P.map f) := by
  simp only [eccTauDual, PointExtproj.map, h.map_add, h.map_sub, h.map_mul, h.map_sqr,
    h.map_const]

theorem map_eccDelphidel (P : PointExtproj α) :
    (eccDelphidel o P).map f = eccDelphidel o' (P.map f) := by
  simp only [eccDelphidel, PointExtproj.map, h.map_add, h.map_sub, h.map_mul, h.map_sqr,
    h.map_conj, h.map_const]

theorem map_eccDelpsidel (P : PointExtproj α) :
    (eccDelpsidel o P).map f = eccDelpsidel o' (P.map f) := by
  simp only [eccDelpsidel, PointExtproj.map, h.map_add, h.map_mul, h.map_sqr, h.map_neg,
    h.map_conj, h.map_const]

theorem map_eccPsi (P : PointExtproj α) : (eccPsi o P).map f = eccPsi o' (P.map f) := by
  rw [eccPsi, h.map_eccTauDual, h.map_eccDelpsidel, h.map_eccTau, ← eccPsi]

theorem map_eccPhi (P : PointExtproj α) : (eccPhi o P).map f = eccPhi o' (P.map f) := by
  rw [eccPhi, h.map_eccTauDual, h.map_eccDelphidel, h.map_eccTau, ← eccPhi]

theorem map_eccnegExtprojPrecomp (P : PointExtprojPrecomp α) :
    (eccnegExtprojPrecomp o P).map f = eccnegExtprojPrecomp o' (P.map f) := by
  simp only [eccnegExtprojPrecomp, PointExtprojPrecomp.map, h.map_neg]

theorem map_eccnegPrecomp (P : PointPrecomp α) :
    (eccnegPrecomp o P).map f = eccnegPrecomp o' (P.map f) := by
  simp only [eccnegPrecomp, PointPrecomp.map, h.map_neg]

theorem map_cofactorClearing (R : PointExtproj α) :
    (cofactorClearing o R).map f = cofactorClearing o' (R.map f) := by
  simp only [cofactorClearing, h.map_eccdouble, h.map_eccadd, h.map_r1ToR2]

end F2Hom

end ZkQuorum.Crypto
