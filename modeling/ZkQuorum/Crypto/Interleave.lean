import ZkQuorum.Crypto.Multiples
import ZkQuorum.Crypto.Recode

/-!
# The interleaved loop (crypto/src/riscv_fourq_verify.c)

What the 65-step loop of `ecc_mul_double` computes, whatever the points are. An
`Interpretation` reads them in a commutative group: it says which group element a point stands
for and that the point operations are doubling, addition and negation there. Nothing else about
the curve or the field is used.

The invariant of the loop is Horner's rule on all eight recodings at once (`point_mulLoop`). With
the digits of `wNAF_recode` the sum is that of the scalars times the points
(**`mulLoop_eq_sum`**). The points of FourQ are one interpretation (`curveInterpretation`), with
the points of the table of `riscv_tables.c`.
-/

namespace ZkQuorum.Crypto

open SignedDigits

/-- The points as elements of a commutative group. -/
structure Interpretation {α : Type} (o : F2Ops α) (G : Type) [AddCommGroup G] where
  /-- `point_extproj` -/
  point : PointExtproj α → G → Prop
  /-- `point_extproj_precomp`, from `R1_to_R2` -/
  r2 : PointExtprojPrecomp α → G → Prop
  /-- `point_extproj_precomp`, from `R1_to_R3` -/
  r3 : PointExtprojPrecomp α → G → Prop
  /-- `point_precomp` -/
  precomp : PointPrecomp α → G → Prop
  neutral : point (neutral o) 0
  r1ToR2 : ∀ {P A}, point P A → r2 (r1ToR2 o P) A
  r1ToR3 : ∀ {P A}, point P A → r3 (r1ToR3 o P) A
  eccdouble : ∀ {P A}, point P A → point (eccdouble o P) (A + A)
  eccaddCore : ∀ {Q R A B}, r2 Q A → r3 R B → point (eccaddCore o Q R) (A + B)
  eccmadd : ∀ {M P A B}, precomp M B → point P A → point (eccmadd o M P) (A + B)
  eccnegExtprojPrecomp : ∀ {Q A}, r2 Q A → r2 (eccnegExtprojPrecomp o Q) (-A)
  eccnegPrecomp : ∀ {M A}, precomp M A → precomp (eccnegPrecomp o M) (-A)

/-- A digit of a recoding: 0 or odd. -/
def IsNafDigit {w : Nat} (d : Digit w) : Prop := d.val = 0 ∨ d.val % 2 = 1

/-- The entry that an odd digit selects is its absolute value times the point. -/
theorem index_odd {w n : Nat} (h : 2 ^ (w - 1) = 2 * n) {d : Digit w} (hd : d.val % 2 = 1) :
    2 * (d.index h).val + 1 = d.val.natAbs := by
  show 2 * (d.val.natAbs / 2) + 1 = d.val.natAbs
  omega

theorem smul_of_neg {G : Type} [AddCommGroup G] {d : Int} (hd : d < 0) (P : G) :
    d • P = -(d.natAbs • P) := by
  rw [← natCast_zsmul, ← neg_zsmul]
  congr 1
  omega

theorem smul_of_nonneg {G : Type} [AddCommGroup G] {d : Int} (hd : 0 ≤ d) (P : G) :
    d • P = d.natAbs • P := by
  rw [← natCast_zsmul]
  congr 1
  omega

namespace Interpretation

variable {α G : Type} {o : F2Ops α} [AddCommGroup G] (I : Interpretation o G)

include I

/-- `eccadd` -/
theorem eccadd {P : PointExtproj α} {Q : PointExtprojPrecomp α} {A B : G} (hQ : I.r2 Q B)
    (hP : I.point P A) : I.point (Crypto.eccadd o Q P) (A + B) := by
  rw [add_comm]
  exact I.eccaddCore hQ (I.r1ToR3 hP)

/-- **`ecc_precomp_double`**: P, 3P, 5P, 7P. -/
theorem eccPrecompDouble {P : PointExtproj α} {A : G} (hP : I.point P A) (i : Fin 4) :
    I.r2 ((Crypto.eccPrecompDouble o P).get i) ((2 * i.val + 1) • A) := by
  have hodd : ∀ n : Nat, (2 * n + 1) • A + (A + A) = (2 * (n + 1) + 1) • A := by
    intro n
    rw [← two_nsmul, ← add_nsmul]
    rfl
  have hdouble := I.r1ToR3 (I.eccdouble hP)
  have h0 : I.r2 (Crypto.r1ToR2 o P) ((2 * 0 + 1) • A) := by
    rw [Nat.mul_zero, Nat.zero_add, one_nsmul]
    exact I.r1ToR2 hP
  have h1 := I.r1ToR2 (I.eccaddCore h0 hdouble)
  rw [hodd] at h1
  have h2 := I.r1ToR2 (I.eccaddCore h1 hdouble)
  rw [hodd] at h2
  have h3 := I.r1ToR2 (I.eccaddCore h2 hdouble)
  rw [hodd] at h3
  match i with
  | 0 => exact h0
  | 1 => exact h1
  | 2 => exact h2
  | 3 => exact h3

section Digits

variable {T : PointExtproj α} {A : G}

/-- A digit that is 0 or odd: nothing is added, or the entry it selects, or the negation of that. -/
theorem pointDigit {w n : Nat} (h : 2 ^ (w - 1) = 2 * n) {d : Digit w} (hd : IsNafDigit d)
    {M N : PointExtproj α} {Q : G} (hneg : I.point N (A + -((2 * (d.index h).val + 1) • Q)))
    (hpos : I.point M (A + (2 * (d.index h).val + 1) • Q)) (hT : I.point T A) :
    I.point (if d.val < 0 then N else if d.val > 0 then M else T) (A + d.val • Q) := by
  rcases hd with hzero | hodd
  · rw [if_neg (by omega), if_neg (by omega), hzero, zero_smul, add_zero]
    exact hT
  rw [index_odd h hodd] at hneg hpos
  by_cases hlt : d.val < 0
  · rw [if_pos hlt, smul_of_neg hlt]
    exact hneg
  · rw [if_neg hlt, if_pos (by omega), smul_of_nonneg (Int.not_lt.mp hlt)]
    exact hpos

/-- The addition of a digit of an l scalar. -/
theorem addDigit {table : Vector (PointExtprojPrecomp α) 4} {Q : G}
    (htable : ∀ i : Fin 4, I.r2 (table.get i) ((2 * i.val + 1) • Q)) {d : Digit 4}
    (hd : IsNafDigit d) (hT : I.point T A) :
    I.point (Crypto.addDigit o table d T) (A + d.val • Q) := by
  have hentry := htable (d.index (n := 4) rfl)
  exact I.pointDigit rfl hd (I.eccadd (I.eccnegExtprojPrecomp hentry) hT) (I.eccadd hentry hT) hT

/-- The addition of a digit of the `j`-th k scalar. -/
theorem maddDigit {j : Fin 4} {B : G} (htable : ∀ i : Fin 64,
      I.precomp ((doubleScalarPoint j i).map o.const) ((2 * i.val + 1) • B))
    {d : Digit 8} (hd : IsNafDigit d) (hT : I.point T A) :
    I.point (Crypto.maddDigit o j d T) (A + d.val • B) := by
  have hentry := htable (d.index rfl)
  exact I.pointDigit rfl hd (I.eccmadd (I.eccnegPrecomp hentry) hT) (I.eccmadd hentry hT) hT

end Digits

/-! ## The loop -/

/-- The tables hold the odd multiples of `g` and `q`, the digits are 0 or odd. -/
structure Holds (m : MulTables α) (g q : Fin 4 → G) : Prop where
  precomp : ∀ (j : Fin 4) (i : Fin 64),
    I.precomp ((doubleScalarPoint j i).map o.const) ((2 * i.val + 1) • g j)
  table : ∀ j i : Fin 4, I.r2 ((m.table j).get i) ((2 * i.val + 1) • q j)
  digitsK : ∀ j i, IsNafDigit ((m.digitsK j).getD i (.zero 8))
  digitsL : ∀ j i, IsNafDigit ((m.digitsL j).getD i (.zero 4))

end Interpretation

/-! ## The points of FourQ -/

theorem representsFp2_neutral : RepresentsFp2 (neutral fp2Ops) 0 := by
  have hzero : F2elm.toFp2 .zero = 0 := Fp2.ext toFp_zero toFp_zero
  refine { z_ne := ?_, x := ?_, y := ?_, t := ?_ }
  · show F2elm.toFp2 .one ≠ 0
    rw [toFp2_one]
    exact one_ne_zero
  · show F2elm.toFp2 .zero = 0 * F2elm.toFp2 .one
    rw [hzero, zero_mul]
  · show F2elm.toFp2 .one = 1 * F2elm.toFp2 .one
    rw [one_mul]
  · show F2elm.toFp2 .zero * F2elm.toFp2 .zero * F2elm.toFp2 .one
      = F2elm.toFp2 .zero * F2elm.toFp2 .one
    rw [hzero, zero_mul, zero_mul]

/-- The coordinates of the source as points of FourQ. -/
def curveInterpretation : Interpretation fp2Ops CurvePoint where
  point := RepresentsFp2
  r2 Q A := ∃ z, IsR2 Q A z
  r3 R A := ∃ z, IsR3 R A z
  precomp := IsPrecompFp2
  neutral := representsFp2_neutral
  r1ToR2 hP := ⟨_, hP.r1ToR2⟩
  r1ToR3 hP := ⟨_, hP.r1ToR3⟩
  eccdouble hP := hP.eccdouble
  eccaddCore hQ hR := by
    obtain ⟨z, hQ⟩ := hQ
    obtain ⟨w, hR⟩ := hR
    exact hQ.eccaddCore hR
  eccmadd hM hP := hP.eccmadd hM
  eccnegExtprojPrecomp hQ := by
    obtain ⟨z, hQ⟩ := hQ
    exact ⟨z, hQ.neg⟩
  eccnegPrecomp hM := hM.neg

/-! ## The turns of the loop -/

section Loop

variable {α G : Type} {o : F2Ops α} [AddCommGroup G] {I : Interpretation o G} {m : MulTables α}
  {g q : Fin 4 → G}

/-- What position `i` of the eight recodings contributes. -/
def contribution (m : MulTables α) (g q : Fin 4 → G) (i : Nat) : G :=
  ∑ j : Fin 4, ((m.digitsL j).getD i (.zero 4)).val • q j
    + ∑ j : Fin 4, ((m.digitsK j).getD i (.zero 8)).val • g j

/-- One turn doubles and adds the contribution of its position. -/
theorem point_mulStep (h : I.Holds m g q) {T : PointExtproj α} {A : G} (hT : I.point T A)
    (i : Nat) : I.point (mulStep o m i T) (A + A + contribution m g q i) := by
  have hl : I.point (addDigits o m i (eccdouble o T))
      (A + A + ∑ j : Fin 4, ((m.digitsL j).getD i (.zero 4)).val • q j) :=
    forRange_rel_sum (I.eccdouble hT) fun j T A hT => I.addDigit (h.table j) (h.digitsL j i) hT
  rw [contribution, ← add_assoc]
  exact forRange_rel_sum hl fun j T A hT => I.maddDigit (h.precomp j) (h.digitsK j i) hT

/-- **The invariant of the loop**: Horner's rule on all recodings at once. -/
theorem point_mulLoop (h : I.Holds m g q) (n : Nat) {T : PointExtproj α} {A : G}
    (hT : I.point T A) : I.point (mulLoop o m n T) (horner (contribution m g q) n A) := by
  induction n generalizing T A with
  | zero => exact hT
  | succ n ih => exact ih (point_mulStep h hT n)

end Loop

theorem isWidth_eight : 2 ≤ 8 ∧ 8 ≤ 30 := by decide

theorem isWidth_four : 2 ≤ 4 ∧ 4 ≤ 30 := by decide

/-- The digits and the tables of the loop, for any eight sub-scalars. -/
def scalarTables {α : Type} (o : F2Ops α) (k l : Fin 4 → UInt64) (Q : Fin 4 → PointExtproj α) :
    MulTables α where
  digitsK j := wnafRecode ⟨8, isWidth_eight⟩ (k j)
  digitsL j := wnafRecode ⟨4, isWidth_four⟩ (l j)
  table j := eccPrecompDouble o (Q j)

theorem isNafDigit_wnafRecode (w : Width) (scalar : UInt64) (i : Nat) :
    IsNafDigit ((wnafRecode w scalar).getD i (.zero w)) := by
  rw [getD_wnafRecode]
  exact odd_digitAt w scalar i

/-- The contributions of the digits of one sub-scalar. -/
theorem sum_wnafRecode {G : Type} [AddCommGroup G] (w : Width) (scalar : UInt64) (P : G) :
    ∑ i : Fin 65, 2 ^ i.val • (((wnafRecode w scalar).getD i (.zero w)).val • P)
      = scalar.toNat • P := by
  have hlen : (digitValues (wnafLoop w scalar [])).length ≤ 65 := by
    rw [digitValues, List.length_map]
    exact length_wnafLoop_le w scalar 64 (Nat.le_of_lt scalar.toNat_lt)
  rw [← natCast_zsmul, ← value_wnafLoop w, ← sum_digits_smul hlen]
  refine Finset.sum_congr rfl fun i _ => ?_
  rw [getD_wnafRecode, getD_digitValues]

/-- The digits that the loop reads are the cells that `wNAF_recode` stored, and each selects an
entry of a table of `n`. -/
def SelectsWithin (w : Width) (n : Nat) (scalar : UInt64) (ds : List (Digit w)) : Prop :=
  ∃ digits : Vector Int8 65, (∀ old, wnafRecodeArray w scalar old = some digits) ∧
    ∀ i : Fin 65, (ds.getD i (.zero w)).val = (digits.get i).toInt ∧
      (digits.get i).toInt.natAbs / 2 < n

theorem selectsWithin {w : Width} {n : Nat} (hw : w.val ≤ 8) (hn : 2 ^ (w.val - 1) = 2 * n)
    (scalar : UInt64) : SelectsWithin w n scalar (wnafRecode w scalar) := by
  obtain ⟨digits, hrun, hdigit⟩ := wnafRecodeArray_digitAt hw scalar
  refine ⟨digits, hrun, fun i => ?_⟩
  have hcell : (digits.get i).toInt = (digitAt w scalar i).val := hdigit i
  rw [getD_wnafRecode, hcell]
  exact ⟨rfl, ((digitAt w scalar i).index hn).isLt⟩

/-! ## The multiplication -/

section Multiplication

variable {α G : Type} {o : F2Ops α} [AddCommGroup G] (I : Interpretation o G)
  (k l : Fin 4 → UInt64) {Q : Fin 4 → PointExtproj α} {g q : Fin 4 → G}

/-- Horner's rule over the recodings adds up the scalars. -/
theorem horner_scalarTables : horner (contribution (scalarTables o k l Q) g q) 65 0
    = ∑ j, (k j).toNat • g j + ∑ j, (l j).toNat • q j := by
  rw [horner_eq_sum, smul_zero, zero_add]
  simp only [contribution, smul_add, Finset.sum_add_distrib, Finset.smul_sum]
  rw [Finset.sum_comm, add_comm, Finset.sum_comm]
  congr 1
  · exact Finset.sum_congr rfl fun j _ => sum_wnafRecode ⟨8, isWidth_eight⟩ (k j) (g j)
  · exact Finset.sum_congr rfl fun j _ => sum_wnafRecode ⟨4, isWidth_four⟩ (l j) (q j)

theorem holds_scalarTables (hg : ∀ (j : Fin 4) (i : Fin 64),
      I.precomp ((doubleScalarPoint j i).map o.const) ((2 * i.val + 1) • g j))
    (hq : ∀ j, I.point (Q j) (q j)) : I.Holds (scalarTables o k l Q) g q where
  precomp := hg
  table j i := I.eccPrecompDouble (hq j) i
  digitsK j i := isNafDigit_wnafRecode _ (k j) i
  digitsL j i := isNafDigit_wnafRecode _ (l j) i

/-- **The interleaved loop is multi-scalar multiplication**, in every interpretation. -/
theorem mulLoop_eq_sum (hg : ∀ (j : Fin 4) (i : Fin 64),
      I.precomp ((doubleScalarPoint j i).map o.const) ((2 * i.val + 1) • g j))
    (hq : ∀ j, I.point (Q j) (q j)) :
    let m := scalarTables o k l Q
    I.point (mulLoop o m 65 (neutral o)) (∑ j, (k j).toNat • g j + ∑ j, (l j).toNat • q j) ∧
      (∀ j i : Fin 4, I.r2 ((m.table j).get i) ((2 * i.val + 1) • q j)) ∧
      ∀ j, SelectsWithin ⟨8, isWidth_eight⟩ 64 (k j) (m.digitsK j) ∧
        SelectsWithin ⟨4, isWidth_four⟩ 4 (l j) (m.digitsL j) := by
  intro m
  have hholds : I.Holds m g q := holds_scalarTables I k l hg hq
  refine ⟨?_, hholds.table, fun j => ⟨selectsWithin (by decide) (by decide) _,
    selectsWithin (by decide) (by decide) _⟩⟩
  rw [← horner_scalarTables]
  exact point_mulLoop hholds 65 I.neutral

end Multiplication

/-- The largest scalars times the points of the table, and three times a point of order 4. -/
theorem mulLoop_eq_sum_orderFour : RepresentsFp2
    (mulLoop fp2Ops (scalarTables fp2Ops (fun _ => 0xFFFFFFFFFFFFFFFF) (fun _ => 3)
      fun _ => pointSetup fp2Ops ⟨orderFour.x, orderFour.y⟩) 65 (neutral fp2Ops))
    (∑ j, (0xFFFFFFFFFFFFFFFF : UInt64).toNat • basePoint j
      + ∑ _j : Fin 4, (3 : UInt64).toNat • orderFour) :=
  (mulLoop_eq_sum curveInterpretation (fun _ => 0xFFFFFFFFFFFFFFFF) (fun _ => 3)
    isPrecompFp2_entry fun _ => representsFp2_pointSetup orderFour).1

/-- **`ecc_mul_double` in the group of FourQ**, in both builds: the sub-scalars of k times the
points of the table, and those of l times what the four points Q1 to Q4 stand for. -/
theorem represents_mulDouble (build : Build) (k l : Words4) {Q1 : PointExtproj F2elm}
    {q : Fin 4 → CurvePoint} (h1 : Represents Q1 (q 0))
    (h2 : Represents (eccPhi build.ops Q1) (q 1)) (h3 : Represents (eccPsi build.ops Q1) (q 2))
    (h4 : Represents (eccPsi build.ops (eccPhi build.ops Q1)) (q 3)) :
    Represents (mulDouble build.ops k l Q1) (∑ j, ((decompose k).get j).toNat • basePoint j
      + ∑ j, ((decompose l).get j).toNat • q j) := by
  have hom := toFp2_hom build
  have hq : ∀ j, RepresentsFp2 (#v[Q1.map F2elm.toFp2, eccPhi fp2Ops (Q1.map F2elm.toFp2),
      eccPsi fp2Ops (Q1.map F2elm.toFp2),
      eccPsi fp2Ops (eccPhi fp2Ops (Q1.map F2elm.toFp2))].get j) (q j) := by
    intro j
    rw [Represents, hom.map_eccPhi] at h2
    rw [Represents, hom.map_eccPsi] at h3
    rw [Represents, hom.map_eccPsi, hom.map_eccPhi] at h4
    fin_cases j
    · exact h1
    · exact h2
    · exact h3
    · exact h4
  have hholds := holds_scalarTables curveInterpretation (decompose k).get (decompose l).get
    isPrecompFp2_entry hq
  rw [Represents, hom.map_mulDouble, ← horner_scalarTables]
  exact point_mulLoop hholds 65 representsFp2_neutral

end ZkQuorum.Crypto
