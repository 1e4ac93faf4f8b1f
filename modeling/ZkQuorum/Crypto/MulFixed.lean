import ZkQuorum.Crypto.FixedBase
import ZkQuorum.Crypto.FixedRecode
import ZkQuorum.Crypto.Order

/-!
# Fixed-base multiplication (crypto/src/stock_qubic.c)

`ecc_mul_fixed`: the digits select one point of each block of `FIXED_BASE_TABLE` for each of ten
columns, and the columns are added from the top with a doubling between them. The field and
point routines of the reference are those of the portable build.

**`eccMulFixed_eq`**: for every 256-bit k the result is k G in affine coordinates below p.
-/

namespace ZkQuorum.Crypto.Stock

/-- `fp2div1271`. -/
def fp2div1271 (a : F2elm) : F2elm := ⟨fphalf1271 a.c0, fphalf1271 a.c1⟩

/-- `((((d3 << 1) + d2) << 1) + d1) << 1) + d0`, on `unsigned int`. -/
def columnBits (d3 d2 d1 d0 : BitDigit) : UInt32 :=
  ((((((d3.val <<< 1) + d2.val) <<< 1) + d1.val) <<< 1) + d0.val)

theorem toNat_columnBits (d3 d2 d1 d0 : BitDigit) : (columnBits d3 d2 d1 d0).toNat
    = 8 * d3.val.toNat + 4 * d2.val.toNat + 2 * d1.val.toNat + d0.val.toNat := by
  obtain ⟨d3, rfl | rfl⟩ := d3 <;> obtain ⟨d2, rfl | rfl⟩ := d2 <;>
    obtain ⟨d1, rfl | rfl⟩ := d1 <;> obtain ⟨d0, rfl | rfl⟩ := d0 <;> rfl

theorem columnBits_lt (d3 d2 d1 d0 : BitDigit) : (columnBits d3 d2 d1 d0).toNat < 16 := by
  have h3 := d3.toNat_le
  have h2 := d2.toNat_le
  have h1 := d1.toNat_le
  have h0 := d0.toNat_le
  rw [toNat_columnBits]
  omega

/-- Digit 50 (t + 1) + 10 j + c, a bit. -/
def bitIndex (t : Fin 4) (j : Fin 5) (c : Fin 10) : Fin 200 := ⟨50 * t + (10 * j + c), by omega⟩

theorem zero_lt_rows : 0 < 4 := by decide

theorem one_lt_rows : 1 < 4 := by decide

theorem two_lt_rows : 2 < 4 := by decide

theorem three_lt_rows : 3 < 4 := by decide

/-- Digit 10 j + c, a sign. -/
def columnIndex (j : Fin 5) (c : Fin 10) : Fin 50 := ⟨10 * j + c, by omega⟩

/-- The entry of block j that the bits of column c select. -/
def selectedEntry (d : FixedDigits) (j : Fin 5) (c : Fin 10) : Fin 16 :=
  ⟨(columnBits (d.bits.get (bitIndex ⟨3, three_lt_rows⟩ j c))
      (d.bits.get (bitIndex ⟨2, two_lt_rows⟩ j c)) (d.bits.get (bitIndex ⟨1, one_lt_rows⟩ j c))
      (d.bits.get (bitIndex ⟨0, zero_lt_rows⟩ j c))).toNat, columnBits_lt _ _ _ _⟩

/-- `table_lookup_fixed_base`. The words of `t2` are negated as `fp2neg1271` does. -/
def tableLookupFixedBase (digit : Fin 80) (sign : SignDigit) : PointPrecomp F2elm :=
  let P := fixedBasePoint digit
  if sign.val ≠ 0 then ⟨P.yx, P.xy, fp2neg1271 P.t2⟩ else ⟨P.xy, P.yx, P.t2⟩

/-- The lookup for block j of column c: `16 * j` plus the bits, and the sign digit. -/
def lookup (d : FixedDigits) (j : Fin 5) (c : Fin 10) : PointPrecomp F2elm :=
  tableLookupFixedBase (blockIndex j (selectedEntry d j c)) (d.signs.get (columnIndex j c))

/-- From (x+y, y-x, 2dt) to (X, Y, Z, Ta, Tb). -/
def startPoint (S : PointPrecomp F2elm) : PointExtproj F2elm :=
  let x := fp2div1271 (fp2sub1271 S.xy S.yx)
  let y := fp2div1271 (fp2add1271 S.xy S.yx)
  ⟨x, y, .one, x, y⟩

/-- `eccmadd(S, R)` after the lookup for block j of column c. -/
def addBlock (d : FixedDigits) (c : Fin 10) (R : PointExtproj F2elm) (j : Fin 5) :
    PointExtproj F2elm :=
  eccmadd Build.portable.ops (lookup d j c) R

/-- The first column, 9. The sign of its highest block is passed as 0. -/
def firstColumn (d : FixedDigits) : PointExtproj F2elm :=
  let S := tableLookupFixedBase (blockIndex 4 (selectedEntry d 4 9)) SignDigit.zero
  forRange 4 (startPoint S) fun R j => addBlock d 9 R j.rev.castSucc

/-- The columns from 8 to 0. -/
def nextColumn (d : FixedDigits) (R : PointExtproj F2elm) (i : Fin 9) : PointExtproj F2elm :=
  let R := eccdouble Build.portable.ops R
  forRange 5 R fun R j => addBlock d i.rev.castSucc R j.rev

/-- `ecc_mul_fixed`. -/
def eccMulFixed (k : Words4) : PointAffine F2elm :=
  let d := recode k
  eccnorm .portable (forRange 9 (firstColumn d) (nextColumn d))

/-! ## The columns -/

/-- The base point. -/
abbrev basePointG : CurvePoint := basePoint ⟨0, zero_lt_rows⟩

theorem nsmul_basePointG_congr {m n : Nat} (h : m ≡ n [MOD orderNat]) :
    m • basePointG = n • basePointG := nsmul_basePoint_congr h

/-- What block j adds for column c of an odd scalar. -/
def blockPoint (k : Nat) (c : Nat) (j : Nat) : CurvePoint :=
  (2 ^ (10 * j) * SignedComb.column 50 4 k (10 * j + c)) • basePointG

/-- What a column adds. -/
def columnPoint (k : Nat) (c : Nat) : CurvePoint := ∑ j ∈ Finset.range 5, blockPoint k c j

section Columns

variable {d : FixedDigits} {k : Nat}

theorem selected_eq : ∀ u : Fin 16, selected u = 1 + (u.val % 2) * 2 ^ 50
    + (u.val / 2 % 2) * 2 ^ 100 + (u.val / 4 % 2) * 2 ^ 150 + (u.val / 8 % 2) * 2 ^ 200 := by
  decide +kernel

theorem IsRecoding.selected (h : IsRecoding d k) (j : Fin 5) (c : Fin 10) :
    selected (selectedEntry d j c) = SignedComb.tooth 50 4 k (10 * j + c) := by
  have hbit : ∀ t : Fin 4, (d.bits.get (bitIndex t j c)).val.toNat
      = SignedComb.bit 50 k t (10 * j + c) := fun t => h.bits (bitIndex t j c)
  have hle : ∀ t : Nat, SignedComb.bit 50 k t (10 * j + c) ≤ 1 := fun t =>
    Nat.le_of_lt_succ (Nat.mod_lt _ two_pos)
  have hu : (selectedEntry d j c).val = 8 * SignedComb.bit 50 k 3 (10 * j + c)
      + 4 * SignedComb.bit 50 k 2 (10 * j + c) + 2 * SignedComb.bit 50 k 1 (10 * j + c)
      + SignedComb.bit 50 k 0 (10 * j + c) := by
    have hbits := toNat_columnBits (d.bits.get (bitIndex 3 j c)) (d.bits.get (bitIndex 2 j c))
      (d.bits.get (bitIndex 1 j c)) (d.bits.get (bitIndex 0 j c))
    rwa [hbit 3, hbit 2, hbit 1, hbit 0] at hbits
  have h3 := hle 3
  have h2 := hle 2
  have h1 := hle 1
  have h0 := hle 0
  have hu0 : (selectedEntry d j c).val % 2 = SignedComb.bit 50 k 0 (10 * j + c) := by omega
  have hu1 : (selectedEntry d j c).val / 2 % 2 = SignedComb.bit 50 k 1 (10 * j + c) := by omega
  have hu2 : (selectedEntry d j c).val / 4 % 2 = SignedComb.bit 50 k 2 (10 * j + c) := by omega
  have hu3 : (selectedEntry d j c).val / 8 % 2 = SignedComb.bit 50 k 3 (10 * j + c) := by omega
  rw [selected_eq, hu0, hu1, hu2, hu3, SignedComb.tooth]
  simp only [Finset.sum_range_succ, Finset.sum_range_zero, Nat.zero_add, Nat.add_assoc]

theorem isPrecomp_fixedBasePoint (j : Fin 5) (u : Fin 16) :
    IsPrecomp (fixedBasePoint (blockIndex j u))
      ((2 ^ (10 * j.val) * Crypto.selected u) • basePointG) :=
  isPrecompFp2_fixedEntry j u

theorem isPrecomp_tableLookupFixedBase {digit : Fin 80} {A : CurvePoint} (sign : SignDigit)
    (h : IsPrecomp (fixedBasePoint digit) A) :
    IsPrecomp (tableLookupFixedBase digit sign)
      (SignedComb.sign (decide (sign.val ≠ 0)) • A) := by
  rw [tableLookupFixedBase]
  by_cases hs : sign.val ≠ 0
  · rw [if_pos hs, decide_eq_true hs, show SignedComb.sign true = -1 from rfl, neg_one_zsmul]
    have hneg := IsPrecompFp2.neg h
    rw [IsPrecomp]
    have hmap := (toFp2_hom .portable).map_eccnegPrecomp (fixedBasePoint digit)
    rw [← hmap] at hneg
    exact hneg
  · rw [if_neg hs, decide_eq_false hs, show SignedComb.sign false = 1 from rfl, one_zsmul]
    exact h

/-- **A lookup is the point of its block and column.** -/
theorem IsRecoding.tableLookup (h : IsRecoding d k) (j : Fin 5) (c : Fin 10) {sign : SignDigit}
    (hsign : decide (sign.val ≠ 0) = SignedComb.negative 50 k (10 * j + c)) :
    IsPrecomp (tableLookupFixedBase (blockIndex j (selectedEntry d j c)) sign)
      (blockPoint k c j) := by
  have hentry := isPrecomp_tableLookupFixedBase sign
    (isPrecomp_fixedBasePoint j (selectedEntry d j c))
  rw [hsign, h.selected, ← natCast_zsmul, ← mul_zsmul', mul_comm] at hentry
  have hcolumn : SignedComb.sign (SignedComb.negative 50 k (10 * j + c))
        * ((2 ^ (10 * j.val) * SignedComb.tooth 50 4 k (10 * j + c) : Nat) : Int)
      = 2 ^ (10 * j.val) * SignedComb.column 50 4 k (10 * j + c) := by
    rw [SignedComb.column]
    push_cast
    ring
  rw [hcolumn] at hentry
  exact hentry

theorem IsRecoding.lookup (h : IsRecoding d k) (j : Fin 5) (c : Fin 10) :
    IsPrecomp (lookup d j c) (blockPoint k c j) := by
  apply h.tableLookup
  have hiff := h.signs (columnIndex j c)
  rw [Bool.eq_iff_iff, decide_eq_true_iff, hiff]
  rfl

/-- The sign of the highest digit is not read: the comb has none there. -/
theorem IsRecoding.firstLookup (h : IsRecoding d k) :
    IsPrecomp (tableLookupFixedBase (blockIndex 4 (selectedEntry d 4 9)) SignDigit.zero)
      (blockPoint k 9 4) := by
  apply h.tableLookup
  exact (SignedComb.negative_last 50 k).symm

theorem fp2div1271_of_add_self {a : F2elm} {x : Fp2} (h : a.toFp2 = x + x) :
    (fp2div1271 a).toFp2 = x := by
  have hhalf : ∀ (b : Felm) (y : Fp), b.toFp = y + y → (fphalf1271 b).toFp = y := by
    intro b y hb
    rw [toFp_fphalf1271, hb, ← two_mul, mul_div_cancel_left₀ y two_ne_zero_fp]
  apply Fp2.ext
  · exact hhalf a.c0 x.re (congrArg (·.re) h)
  · exact hhalf a.c1 x.im (congrArg (·.im) h)

theorem represents_startPoint {S : PointPrecomp F2elm} {A : CurvePoint} (h : IsPrecomp S A) :
    Represents (startPoint S) A := by
  have hxy : S.xy.toFp2 = A.x + A.y := h.xy
  have hyx : S.yx.toFp2 = A.y - A.x := h.yx
  have hx : (fp2div1271 (fp2sub1271 S.xy S.yx)).toFp2 = A.x := by
    apply fp2div1271_of_add_self
    rw [toFp2_fp2sub1271, hxy, hyx]
    ring
  have hy : (fp2div1271 (fp2add1271 S.xy S.yx)).toFp2 = A.y := by
    apply fp2div1271_of_add_self
    rw [toFp2_fp2add1271, hxy, hyx]
    ring
  have hmap : (startPoint S).map F2elm.toFp2 = pointSetup fp2Ops ⟨A.x, A.y⟩ := by
    simp only [startPoint, PointExtproj.map, hx, hy]
    rfl
  rw [Represents, hmap]
  exact representsFp2_pointSetup A

theorem IsRecoding.addBlock (h : IsRecoding d k) {R : PointExtproj F2elm} {A : CurvePoint}
    (hR : Represents R A) (c : Fin 10) (j : Fin 5) :
    Represents (addBlock d c R j) (A + blockPoint k c j) :=
  hR.eccmadd .portable (h.lookup j c)

theorem IsRecoding.firstColumn (h : IsRecoding d k) :
    Represents (firstColumn d) (columnPoint k 9) := by
  have hsum := forRange_rel_sum (R := Represents) (w := fun j : Fin 4 =>
    blockPoint k (9 : Fin 10) j.rev.castSucc) (represents_startPoint h.firstLookup)
    fun j R A hR => h.addBlock hR 9 j.rev.castSucc
  rw [Fin.sum_univ_four] at hsum
  have hcolumn : columnPoint k 9 = blockPoint k 9 4 + (blockPoint k 9 3 + blockPoint k 9 2
      + blockPoint k 9 1 + blockPoint k 9 0) := by
    simp only [columnPoint, Finset.sum_range_succ, Finset.sum_range_zero]
    abel
  rw [hcolumn]
  exact hsum

theorem IsRecoding.nextColumn (h : IsRecoding d k) {R : PointExtproj F2elm} {A : CurvePoint}
    (hR : Represents R A) (i : Fin 9) :
    Represents (nextColumn d R i) (A + A + columnPoint k i.rev) := by
  have hsum := forRange_rel_sum (R := Represents) (w := fun j : Fin 5 =>
    blockPoint k i.rev.castSucc j.rev) (hR.eccdouble .portable)
    fun j R A hR => h.addBlock hR i.rev.castSucc j.rev
  rw [Fin.sum_univ_five] at hsum
  have hcolumn : columnPoint k i.rev = blockPoint k i.rev 4 + blockPoint k i.rev 3
      + blockPoint k i.rev 2 + blockPoint k i.rev 1 + blockPoint k i.rev 0 := by
    simp only [columnPoint, Finset.sum_range_succ, Finset.sum_range_zero]
    abel
  rw [hcolumn]
  exact hsum

end Columns

/-! ## The multiple -/

section Multiple

variable {d : FixedDigits} {k : Nat}

/-- The columns are evaluated by Horner's rule. -/
theorem IsRecoding.columns (h : IsRecoding d k) :
    Represents (forRange 9 (Stock.firstColumn d) (Stock.nextColumn d))
      (SignedDigits.horner (columnPoint k) 9 (columnPoint k 9)) := by
  -- after turn i the rest of Horner's rule, from what R stands for, gives the whole
  have hrun : ∃ X, Represents (forRange 9 (Stock.firstColumn d) (Stock.nextColumn d)) X ∧
      SignedDigits.horner (columnPoint k) (9 - 9) X
        = SignedDigits.horner (columnPoint k) 9 (columnPoint k 9) := by
    apply forRange_induction (P := fun i R => ∃ X, Represents R X ∧
      SignedDigits.horner (columnPoint k) (9 - i) X
        = SignedDigits.horner (columnPoint k) 9 (columnPoint k 9))
    · exact ⟨columnPoint k 9, h.firstColumn, rfl⟩
    · rintro i R ⟨X, hR, hX⟩
      refine ⟨X + X + columnPoint k i.rev, h.nextColumn hR i, ?_⟩
      have hi : 9 - i.val = i.rev.val + 1 := by
        rw [Fin.val_rev]
        omega
      have hnext : 9 - (i.val + 1) = i.rev.val := by
        rw [Fin.val_rev]
      rw [hi, SignedDigits.horner] at hX
      rw [hnext]
      exact hX
  obtain ⟨X, hR, hX⟩ := hrun
  rw [Nat.sub_self, SignedDigits.horner] at hX
  rwa [← hX]

/-- The columns of an odd scalar below twice the order. -/
theorem horner_columnPoint (hodd : k % 2 = 1) (hlt : k < 2 * orderNat) :
    SignedDigits.horner (columnPoint k) 9 (columnPoint k 9) = k • basePointG := by
  have horder : 2 * orderNat ≤ 2 ^ 50 * 2 ^ 197 := by decide +kernel
  have hrest : k / 2 ^ ((9 + 1) * 5) ≤ 2 ^ 197 := by
    apply Nat.div_le_of_le_mul
    exact (Nat.le_of_lt hlt).trans horder
  apply SignedComb.horner_blocks (w := 4) hodd hrest (by decide)
  intro c _
  rfl

end Multiple

/-- **Fixed-base multiplication computes the multiple of the base point**, for every 256-bit
scalar, and gives its affine coordinates below p. -/
theorem eccMulFixed_eq (k : Words4) : eccMulFixed k = reduced (Words.value k • basePointG) := by
  obtain ⟨hodd, hlt, hmodEq⟩ := oddScalar_spec k
  have hrep := (isRecoding_recode k).columns
  rw [horner_columnPoint hodd hlt, nsmul_basePointG_congr hmodEq] at hrep
  exact hrep.eccnorm .portable

end ZkQuorum.Crypto.Stock
