import ZkQuorum.Crypto.Scalars
import ZkQuorum.Crypto.Tables

/-!
# Double-scalar multiplication (crypto/src/riscv_fourq_verify.c)

The loop of `ecc_mul_double` over any `F2Ops`, and `eccnorm`, which brings the result
back to affine coordinates. **`eccnorm_eq`** says that `eccnorm` sees only the field
elements behind its input and gives their representatives below p.
-/

namespace ZkQuorum.Crypto

/-- `d >> 1` for a positive digit, `(-d) >> 1` for a negative one. -/
def Digit.index {w n : Nat} (h : 2 ^ (w - 1) = 2 * n) (d : Digit w) : Fin n :=
  ⟨d.val.natAbs / 2, by
    have hlt := d.property
    omega⟩

section Loop

variable {α : Type} (o : F2Ops α)

/-- `ecc_precomp_double`: P, 3P, 5P, 7P. -/
def eccPrecompDouble (P : PointExtproj α) : Vector (PointExtprojPrecomp α) 4 :=
  let T0 := r1ToR2 o P
  let P := eccdouble o P
  let PP := r1ToR3 o P
  let T1 := r1ToR2 o (eccaddCore o T0 PP)
  let T2 := r1ToR2 o (eccaddCore o T1 PP)
  let T3 := r1ToR2 o (eccaddCore o T2 PP)
  #v[T0, T1, T2, T3]

/-- The addition of a digit of an l scalar. -/
def addDigit (table : Vector (PointExtprojPrecomp α) 4) (d : Digit 4) (T : PointExtproj α) :
    PointExtproj α :=
  if d.val < 0 then eccadd o (eccnegExtprojPrecomp o table[d.index (n := 4) rfl]) T
  else if d.val > 0 then eccadd o table[d.index (n := 4) rfl] T
  else T

/-- The addition of a digit of the `j`-th k scalar. -/
def maddDigit (j : Fin 4) (d : Digit 8) (T : PointExtproj α) : PointExtproj α :=
  let P := (doubleScalarPoint j (d.index rfl)).map o.const
  if d.val < 0 then eccmadd o (eccnegPrecomp o P) T
  else if d.val > 0 then eccmadd o P T
  else T

/-- The digits and the tables of `ecc_mul_double`. -/
structure MulTables (α : Type) where
  digitsK : Fin 4 → List (Digit 8)
  digitsL : Fin 4 → List (Digit 4)
  table : Fin 4 → Vector (PointExtprojPrecomp α) 4

/-- The additions of the `i`-th digits of the l scalars. -/
def addDigits (m : MulTables α) (i : Nat) (T : PointExtproj α) : PointExtproj α :=
  forRange 4 T fun T j => addDigit o (m.table j) ((m.digitsL j).getD i (.zero 4)) T

/-- The additions of the `i`-th digits of the k scalars. -/
def maddDigits (m : MulTables α) (i : Nat) (T : PointExtproj α) : PointExtproj α :=
  forRange 4 T fun T j => maddDigit o j ((m.digitsK j).getD i (.zero 8)) T

/-- The body of the loop. -/
def mulStep (m : MulTables α) (i : Nat) (T : PointExtproj α) : PointExtproj α :=
  let T := eccdouble o T
  let T := addDigits o m i T
  maddDigits o m i T

/-- `for (i = n; i--; )`. -/
def mulLoop (m : MulTables α) : Nat → PointExtproj α → PointExtproj α
  | 0, T => T
  | i + 1, T => mulLoop m i (mulStep o m i T)

/-- The neutral point that the loop starts from; `ta` and `tb` are written before they
are read. -/
def neutral : PointExtproj α :=
  ⟨o.const .zero, o.const .one, o.const .one, o.const .zero, o.const .zero⟩

/-- `Q_table1` to `Q_table4`. -/
def mulTables (k l : Words4) (Q1 : PointExtproj α) : MulTables α :=
  let Q2 := eccPhi o Q1
  let Q3 := eccPsi o Q1
  let Q4 := eccPsi o Q2
  { digitsK := fun j => wnafRecode ⟨8, by decide⟩ ((decompose k).get j)
    digitsL := fun j => wnafRecode ⟨4, by decide⟩ ((decompose l).get j)
    table := fun j => eccPrecompDouble o (#v[Q1, Q2, Q3, Q4].get j) }

/-- `ecc_mul_double` between the validation and `eccnorm`. -/
def mulDouble (k l : Words4) (Q1 : PointExtproj α) : PointExtproj α :=
  mulLoop o (mulTables o k l Q1) 65 (neutral o)

end Loop

/-- `eccnorm`. -/
def eccnorm (build : Build) (P : PointExtproj F2elm) : PointAffine F2elm :=
  let t0 := fpsqr1271 build P.z.c0
  let t1 := fpsqr1271 build P.z.c1
  let t0 := fpadd1271 t0 t1
  let t0 := fpinv1271 build t0
  let z1 := fpneg1271 P.z.c1
  let z0 := fpmul1271 build P.z.c0 t0
  let z1 := fpmul1271 build z1 t0
  let x := fp2mul1271 build P.x ⟨z0, z1⟩
  let y := fp2mul1271 build P.y ⟨z0, z1⟩
  ⟨⟨mod1271 x.c0, mod1271 x.c1⟩, ⟨mod1271 y.c0, mod1271 y.c1⟩⟩

/-! ## Maps of the operations -/

section Map

variable {α β : Type} (f : α → β)

/-- The tables with every element mapped. -/
def MulTables.map (m : MulTables α) : MulTables β :=
  { digitsK := m.digitsK, digitsL := m.digitsL
    table := fun j => (m.table j).map fun P => P.map f }

end Map

namespace F2Hom

variable {α β : Type} {o : F2Ops α} {o' : F2Ops β} {f : α → β} (h : F2Hom o o' f)

include h

theorem map_eccPrecompDouble (P : PointExtproj α) :
    (eccPrecompDouble o P).map (fun P => P.map f) = eccPrecompDouble o' (P.map f) := by
  simp only [eccPrecompDouble, Vector.map_mk, List.map_toArray, List.map_cons, List.map_nil,
    h.map_r1ToR2, h.map_r1ToR3, h.map_eccaddCore, h.map_eccdouble]

theorem map_addDigit (table : Vector (PointExtprojPrecomp α) 4) (d : Digit 4)
    (T : PointExtproj α) : (addDigit o table d T).map f
      = addDigit o' (table.map fun P => P.map f) d (T.map f) := by
  rw [addDigit, addDigit]
  have hget : (table.map fun P => P.map f)[d.index (n := 4) rfl]
      = (table[d.index (n := 4) rfl]).map f := Vector.getElem_map _ _
  rw [hget]
  split
  · rw [h.map_eccadd, h.map_eccnegExtprojPrecomp]
  · split
    · exact h.map_eccadd _ T
    · rfl

theorem map_maddDigit (j : Fin 4) (d : Digit 8) (T : PointExtproj α) :
    (maddDigit o j d T).map f = maddDigit o' j d (T.map f) := by
  have hconst : ∀ P : PointPrecomp F2elm, (P.map o.const).map f = P.map o'.const := by
    intro P
    simp only [PointPrecomp.map, h.map_const]
  simp only [maddDigit]
  split
  · rw [h.map_eccmadd, h.map_eccnegPrecomp, hconst]
  · split
    · rw [h.map_eccmadd, hconst]
    · rfl

theorem map_addDigits (m : MulTables α) (i : Nat) (T : PointExtproj α) :
    (addDigits o m i T).map f = addDigits o' (m.map f) i (T.map f) :=
  map_forRange (PointExtproj.map f)
    (fun T j => h.map_addDigit (m.table j) ((m.digitsL j).getD i (.zero 4)) T) T

theorem map_maddDigits (m : MulTables α) (i : Nat) (T : PointExtproj α) :
    (maddDigits o m i T).map f = maddDigits o' (m.map f) i (T.map f) :=
  map_forRange (PointExtproj.map f)
    (fun T j => h.map_maddDigit j ((m.digitsK j).getD i (.zero 8)) T) T

theorem map_mulStep (m : MulTables α) (i : Nat) (T : PointExtproj α) :
    (mulStep o m i T).map f = mulStep o' (m.map f) i (T.map f) := by
  rw [mulStep, h.map_maddDigits, h.map_addDigits, h.map_eccdouble, ← mulStep]

theorem map_mulLoop (m : MulTables α) (n : Nat) (T : PointExtproj α) :
    (mulLoop o m n T).map f = mulLoop o' (m.map f) n (T.map f) := by
  induction n generalizing T with
  | zero => rfl
  | succ i ih => rw [mulLoop, ih, h.map_mulStep, ← mulLoop]

theorem map_mulTables (k l : Words4) (Q1 : PointExtproj α) :
    (mulTables o k l Q1).map f = mulTables o' k l (Q1.map f) := by
  have htable : ∀ j : Fin 4, (eccPrecompDouble o (#v[Q1, eccPhi o Q1, eccPsi o Q1,
        eccPsi o (eccPhi o Q1)].get j)).map (fun P => P.map f)
      = eccPrecompDouble o' (#v[Q1.map f, eccPhi o' (Q1.map f), eccPsi o' (Q1.map f),
        eccPsi o' (eccPhi o' (Q1.map f))].get j) := by
    intro j
    rw [h.map_eccPrecompDouble, ← h.map_eccPhi, ← h.map_eccPsi, ← h.map_eccPsi]
    congr 1
    match j with
    | 0 => rfl
    | 1 => rfl
    | 2 => rfl
    | 3 => rfl
  simp only [mulTables, MulTables.map]
  congr 1
  funext j
  exact htable j

theorem map_neutral : (neutral o).map f = neutral o' := by
  simp only [neutral, PointExtproj.map, h.map_const]

/-- **The whole multiplication commutes with a map of the operations.** -/
theorem map_mulDouble (k l : Words4) (Q1 : PointExtproj α) :
    (mulDouble o k l Q1).map f = mulDouble o' k l (Q1.map f) := by
  rw [mulDouble, h.map_mulLoop, h.map_mulTables, h.map_neutral, ← mulDouble]

end F2Hom

/-! ## The affine result -/

/-- The field elements behind the result of `eccnorm`. -/
def affine (P : PointExtproj Fp2) : PointAffine Fp2 :=
  let n := (P.z.re * P.z.re + P.z.im * P.z.im)⁻¹
  let zinv : Fp2 := ⟨P.z.re * n, -P.z.im * n⟩
  ⟨P.x * zinv, P.y * zinv⟩

/-- `eccnorm` gives the representatives below p, in both builds. -/
theorem eccnorm_eq (build : Build) (P : PointExtproj F2elm) :
    eccnorm build P = (affine (P.map F2elm.toFp2)).map F2elm.ofFp2 := by
  have hmod : ∀ a : F2elm, (⟨mod1271 a.c0, mod1271 a.c1⟩ : F2elm) = F2elm.ofFp2 a.toFp2 := by
    intro a
    rw [mod1271_eq, mod1271_eq]
    rfl
  simp only [eccnorm, hmod, toFp2_fp2mul1271]
  simp only [F2elm.toFp2, toFp_fpmul1271, toFp_fpinv1271, toFp_fpadd1271, toFp_fpsqr1271,
    toFp_fpneg1271]
  rfl

end ZkQuorum.Crypto
