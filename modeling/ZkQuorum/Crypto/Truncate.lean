import ZkQuorum.Crypto.Field
import ZkQuorum.Crypto.Scalars
import Mathlib.Algebra.Order.BigOperators.Group.Finset
import Mathlib.Tactic.Linarith

/-!
# The truncated product (crypto/src/riscv_fourq_verify.c, crypto/src/stock_qubic.c)

`mul_truncate` of the port forms the whole 512-bit product and returns word 4. The reference
adds up the columns 1 to 3 in pairs of words, column 4 in one word, and returns that.

The reference drops the carry of `t5`. What column 1 leaves is small enough that the carry is
never set, whatever the constant, so both are word 4 of the product (**`mulTruncate_ell_eq`**).
-/

namespace ZkQuorum.Crypto

/-- `ell1` to `ell4`. -/
def ell : Vector Words4 4 := #v[ell1, ell2, ell3, ell4]

/-! ## Words as one number -/

/-- The number that little-endian words spell. -/
def Words.value {n : Nat} (v : Vector UInt64 n) : Nat :=
  ∑ i : Fin n, (v.get i).toNat * 2 ^ (64 * i.val)

namespace Words

variable {n : Nat}

theorem value_set (v : Vector UInt64 n) (k : Fin n) (t : UInt64) :
    value (v.set k.val t k.isLt) + (v.get k).toNat * 2 ^ (64 * k.val)
      = value v + t.toNat * 2 ^ (64 * k.val) := by
  have hself : (v.set k.val t k.isLt).get k = t := Vector.getElem_set_self k.isLt
  have hrest : ∑ i ∈ Finset.univ.erase k,
        ((v.set k.val t k.isLt).get i).toNat * 2 ^ (64 * i.val)
      = ∑ i ∈ Finset.univ.erase k, (v.get i).toNat * 2 ^ (64 * i.val) := by
    refine Finset.sum_congr rfl fun i hi => ?_
    have hne : (v.set k.val t k.isLt).get i = v.get i :=
      Vector.getElem_set_ne k.isLt i.isLt fun h => Finset.ne_of_mem_erase hi (Fin.ext h.symm)
    rw [hne]
  rw [value, value, ← Finset.add_sum_erase _ _ (Finset.mem_univ k),
    ← Finset.add_sum_erase _ _ (Finset.mem_univ k), hself, hrest]
  omega

theorem value_replicate_zero : value (Vector.replicate n (0 : UInt64)) = 0 := by
  refine Finset.sum_eq_zero fun i _ => ?_
  have hget : (Vector.replicate n (0 : UInt64)).get i = 0 := Vector.getElem_replicate i.isLt
  rw [hget, UInt64.toNat_zero, Nat.zero_mul]

theorem le_value (v : Vector UInt64 n) (k : Fin n) :
    (v.get k).toNat * 2 ^ (64 * k.val) ≤ value v :=
  Finset.single_le_sum (f := fun i : Fin n => (v.get i).toNat * 2 ^ (64 * i.val))
    (fun _ _ => Nat.zero_le _) (Finset.mem_univ k)

/-- A word is added to one that has room for it. -/
theorem value_set_add (v : Vector UInt64 n) (k : Fin n) (t : UInt64)
    (hlt : value v + t.toNat * 2 ^ (64 * k.val) < 2 ^ 64 * 2 ^ (64 * k.val)) :
    value (v.set k.val (v.get k + t) k.isLt) = value v + t.toNat * 2 ^ (64 * k.val) := by
  have hset := value_set v k (v.get k + t)
  have hle := le_value v k
  generalize 2 ^ (64 * k.val) = W at hlt hle hset ⊢
  have hroom : (v.get k).toNat + t.toNat < 2 ^ 64 := by
    by_contra hover
    have hlarge := Nat.mul_le_mul_right W (Nat.not_lt.mp hover)
    rw [Nat.add_mul] at hlarge
    omega
  have hadd : (v.get k + t).toNat = (v.get k).toNat + t.toNat := by
    rw [UInt64.toNat_add, Nat.mod_eq_of_lt hroom]
  rw [hadd, Nat.add_mul] at hset
  omega

theorem value_four (v : Words4) : value v
    = v[0]!.toNat + v[1]!.toNat * 2 ^ 64 + v[2]!.toNat * 2 ^ 128
      + v[3]!.toNat * 2 ^ 192 := by
  have h : ∀ i : Fin 4, v[i.val]! = v.get i := fun i => getElem!_pos v i.val i.isLt
  have h0 : v[0]! = v.get 0 := h 0
  have h1 : v[1]! = v.get 1 := h 1
  have h2 : v[2]! = v.get 2 := h 2
  have h3 : v[3]! = v.get 3 := h 3
  rw [value, Fin.sum_univ_four, h0, h1, h2, h3]
  rw [show (v.get 0).toNat * 2 ^ (64 * ((0 : Fin 4) : Nat)) = (v.get 0).toNat from Nat.mul_one _]
  rfl

theorem value_four_lt (v : Words4) : value v < 2 ^ 256 := by
  have h0 := v[0]!.toNat_lt
  have h1 := v[1]!.toNat_lt
  have h2 := v[2]!.toNat_lt
  have h3 := v[3]!.toNat_lt
  rw [value_four]
  omega

/-- The columns of a product. -/
theorem value_mul_value (s C : Words4) : value s * value C
    = s[0]!.toNat * C[0]!.toNat
      + 2 ^ 64 * (s[0]!.toNat * C[1]!.toNat + s[1]!.toNat * C[0]!.toNat)
      + 2 ^ 128 * (s[0]!.toNat * C[2]!.toNat + s[1]!.toNat * C[1]!.toNat
        + s[2]!.toNat * C[0]!.toNat)
      + 2 ^ 192 * (s[0]!.toNat * C[3]!.toNat + s[1]!.toNat * C[2]!.toNat
        + s[2]!.toNat * C[1]!.toNat + s[3]!.toNat * C[0]!.toNat)
      + 2 ^ 256 * (s[1]!.toNat * C[3]!.toNat + s[2]!.toNat * C[2]!.toNat
        + s[3]!.toNat * C[1]!.toNat
        + 2 ^ 64 * (s[2]!.toNat * C[3]!.toNat + s[3]!.toNat * C[2]!.toNat
          + 2 ^ 64 * (s[3]!.toNat * C[3]!.toNat))) := by
  rw [value_four, value_four]
  ring

/-- One word of a number. -/
theorem toNat_get_four (v : Vector UInt64 8) : (v.get 4).toNat = value v / 2 ^ 256 % 2 ^ 64 := by
  have h : ∀ i : Fin 8, (v.get i).toNat < 2 ^ 64 := fun i => (v.get i).toNat_lt
  have h0 := h 0
  have h1 := h 1
  have h2 := h 2
  have h3 := h 3
  have h4 := h 4
  rw [value, Fin.sum_univ_eight]
  simp only [show ((0 : Fin 8) : Nat) = 0 from rfl, show ((1 : Fin 8) : Nat) = 1 from rfl,
    show ((2 : Fin 8) : Nat) = 2 from rfl, show ((3 : Fin 8) : Nat) = 3 from rfl,
    show ((4 : Fin 8) : Nat) = 4 from rfl, show ((5 : Fin 8) : Nat) = 5 from rfl,
    show ((6 : Fin 8) : Nat) = 6 from rfl, show ((7 : Fin 8) : Nat) = 7 from rfl]
  omega

end Words

/-! ## The product of the port -/

/-- What the cells and the carry hold together before column `j` of row `i`. -/
def rowValue (i j : Nat) (st : UInt64 × Vector UInt64 8) : Nat :=
  Words.value st.2 + st.1.toNat * 2 ^ (64 * (i + j))

theorem pow_next (i : Nat) : 2 ^ (64 * (i + 1)) = 2 ^ 64 * 2 ^ (64 * i) := by
  rw [← pow_add, Nat.mul_add, Nat.add_comm]

theorem mul_toNat_le (a b : UInt64) : a.toNat * b.toNat ≤ (2 ^ 64 - 1) * (2 ^ 64 - 1) :=
  Nat.mul_le_mul (Nat.le_sub_one_of_lt a.toNat_lt) (Nat.le_sub_one_of_lt b.toNat_lt)

/-- One cell of a row. -/
theorem rowValue_mulCell (si : UInt64) (C : Words4) (i j : Fin 4) (st : UInt64 × Vector UInt64 8) :
    rowValue i (j + 1) (mulCell si C i st j)
      = rowValue i j st + si.toNat * (C.get j).toNat * 2 ^ (64 * (i.val + j.val)) := by
  obtain ⟨carry, prod⟩ := st
  rcases hm : umul128 si C[j] with ⟨lo, hi⟩
  rcases h1 : addcarry64 false prod[cell i j] lo with ⟨c1, t1⟩
  rcases h2 : addcarry64 false t1 carry with ⟨c2, t2⟩
  have em : lo.toNat + 2 ^ 64 * hi.toNat = si.toNat * (C.get j).toNat := umul128_of_eq hm
  have e1 : t1.toNat + 2 ^ 64 * c1.toNat = (prod.get (cell i j)).toNat + lo.toNat + false.toNat :=
    addcarry64_of_eq h1
  have e2 := addcarry64_of_eq h2
  have hsi := si.toNat_lt
  have hC := (C.get j).toNat_lt
  have hcarry := carry.toNat_lt
  have hcell := (prod.get (cell i j)).toNat_lt
  have hprod := mul_toNat_le si (C.get j)
  have hf : false.toNat = 0 := rfl
  have hc1 := c1.toNat_le
  have hc2 := c2.toNat_le
  have ht2 := t2.toNat_lt
  -- the carry of a cell fits in a word
  have hcarry' : (hi + c1.toUInt64 + c2.toUInt64).toNat = hi.toNat + c1.toNat + c2.toNat := by
    rw [UInt64.toNat_add, UInt64.toNat_add, toNat_toUInt64, toNat_toUInt64]
    omega
  have hset := Words.value_set prod (cell i j) t2
  rw [show 64 * (cell i j : Nat) = 64 * (i.val + j.val) from rfl] at hset
  have hcol : t2.toNat + 2 ^ 64 * (hi.toNat + c1.toNat + c2.toNat)
      = (prod.get (cell i j)).toNat + carry.toNat + si.toNat * (C.get j).toNat := by omega
  simp only [rowValue, mulCell, hm, h1, h2, hcarry', ← Nat.add_assoc i.val, pow_next]
  generalize 2 ^ (64 * (i.val + j.val)) = W at *
  have hscaled : (t2.toNat + 2 ^ 64 * (hi.toNat + c1.toNat + c2.toNat)) * W
      = ((prod.get (cell i j)).toNat + carry.toNat + si.toNat * (C.get j).toNat) * W := by rw [hcol]
  linarith

/-- What a row adds fits above what the rows before it left. -/
theorem row_le (si : UInt64) (C : Words4) (i : Nat) :
    si.toNat * 2 ^ (64 * i) * Words.value C ≤ (2 ^ 64 - 1) * 2 ^ (64 * (i + 4)) := by
  have hC := Words.value_four_lt C
  have hsi := si.toNat_lt
  rw [Nat.mul_add, pow_add, Nat.mul_assoc]
  exact Nat.mul_le_mul (Nat.le_sub_one_of_lt hsi) (Nat.mul_le_mul_left _ (Nat.le_of_lt hC))

theorem sum_row (si : UInt64) (C : Words4) (i : Nat) :
    ∑ j : Fin 4, si.toNat * (C.get j).toNat * 2 ^ (64 * (i + j.val))
      = si.toNat * 2 ^ (64 * i) * Words.value C := by
  rw [Words.value, Finset.mul_sum]
  refine Finset.sum_congr rfl fun j _ => ?_
  rw [Nat.mul_add, pow_add]
  ring

/-- The four cells of a row, and the carry that is left. -/
theorem rowValue_loop (s C : Words4) (prod : Vector UInt64 8) (i : Fin 4) :
    rowValue i 4 (forRange 4 (0, prod) (mulCell (s.get i) C i))
      = Words.value prod + (s.get i).toNat * 2 ^ (64 * i.val) * Words.value C := by
  have hsum : rowValue i 4 (forRange 4 (0, prod) (mulCell (s.get i) C i))
      = rowValue i 0 (0, prod)
        + ∑ j : Fin 4, (s.get i).toNat * (C.get j).toNat * 2 ^ (64 * (i.val + j.val)) :=
    forRange_sum (P := fun _ _ => True) trivial (fun _ _ _ => trivial)
      fun j st _ => rowValue_mulCell (s.get i) C i j st
  have hempty : rowValue i 0 (0, prod) = Words.value prod := by
    rw [rowValue, UInt64.toNat_zero, Nat.zero_mul, Nat.add_zero]
  rw [hsum, hempty, sum_row]

/-- **One row adds the constant times its word**, as long as the cells above the row are empty. -/
theorem value_mulRow (s C : Words4) (prod : Vector UInt64 8) (i : Fin 4)
    (hprod : Words.value prod < 2 ^ (64 * (i.val + 4))) :
    Words.value (mulRow s C prod i)
      = Words.value prod + (s.get i).toNat * 2 ^ (64 * i.val) * Words.value C := by
  have hrow := rowValue_loop s C prod i
  have hbound := row_le (s.get i) C i
  rcases hloop : forRange 4 (0, prod) (mulCell s[i] C i) with ⟨carry, prod'⟩
  rw [show s.get i = s[i] from rfl, hloop, rowValue] at hrow
  rw [show s.get i = s[i] from rfl] at hbound ⊢
  rw [← hrow]
  simp only [mulRow, hloop]
  -- the carry goes to a cell that has room for it
  refine Words.value_set_add prod' (cellTop i) carry ?_
  rw [show 64 * (cellTop i : Nat) = 64 * (i.val + 4) from rfl, hrow]
  omega

theorem mulRow_lt (s C : Words4) (prod : Vector UInt64 8) (i : Fin 4)
    (hprod : Words.value prod < 2 ^ (64 * (i.val + 4))) :
    Words.value (mulRow s C prod i) < 2 ^ (64 * (i.val + 1 + 4)) := by
  have hbound := row_le (s.get i) C i
  rw [value_mulRow s C prod i hprod, show i.val + 1 + 4 = i.val + 4 + 1 by omega, pow_next]
  generalize 2 ^ (64 * (i.val + 4)) = W at *
  omega

/-- **`mul_truncate` of the port is word 4 of the product**, for every constant. -/
theorem toNat_mulTruncate (s C : Words4) :
    (mulTruncate s C).toNat = Words.value s * Words.value C / 2 ^ 256 % 2 ^ 64 := by
  have hempty : Words.value (Vector.replicate 8 (0 : UInt64)) = 0 := Words.value_replicate_zero
  have hsum : Words.value (forRange 4 (Vector.replicate 8 0) (mulRow s C))
      = Words.value (Vector.replicate 8 (0 : UInt64))
        + ∑ i : Fin 4, (s.get i).toNat * 2 ^ (64 * i.val) * Words.value C :=
    forRange_sum (P := fun i prod => Words.value prod < 2 ^ (64 * (i + 4)))
      (m := fun _ prod => Words.value prod)
      (by rw [hempty, Nat.zero_add]; exact Nat.two_pow_pos _)
      (fun i prod h => mulRow_lt s C prod i h) fun i prod h => value_mulRow s C prod i h
  have hword : mulTruncate s C = (forRange 4 (Vector.replicate 8 0) (mulRow s C)).get 4 := rfl
  rw [hword, Words.toNat_get_four, hsum, hempty, Nat.zero_add, ← Finset.sum_mul]
  rfl

/-! ## The product of the reference -/

namespace Stock

/-- The carry and the word of column 2 that column 1 leaves: `t2` and `t3`. -/
def column1 (s C : Words4) : UInt64 × UInt64 :=
  let (_, high00) := umul128 s[0]! C[0]!
  let (low10, high10) := umul128 s[1]! C[0]!
  let (c, t0) := addcarry64 false high00 low10
  let (_, t1) := addcarry64 c high10 0
  let (low01, high01) := umul128 s[0]! C[1]!
  let (c, _) := addcarry64 false t0 low01
  let (t2, t3) := addcarry64 c t1 high01
  (t2.toUInt64, t3)

/-- The carry and the word of column 3 that column 2 leaves: `t6 + t9` and `t10`. -/
def column2 (s C : Words4) (t2 t3 : UInt64) : UInt64 × UInt64 :=
  let (low20, high20) := umul128 s[2]! C[0]!
  let (c, t4) := addcarry64 false t3 low20
  let (_, t5) := addcarry64 c t2 high20
  let (low02, high02) := umul128 s[0]! C[2]!
  let (c, t7) := addcarry64 false t4 low02
  let (t6, t8) := addcarry64 c t5 high02
  let (low11, high11) := umul128 s[1]! C[1]!
  let (c, _) := addcarry64 false t7 low11
  let (t9, t10) := addcarry64 c t8 high11
  (t6.toUInt64 + t9.toUInt64, t10)

/-- The word of column 4 that column 3 leaves: the last carry, `t16` and `high21`. -/
def column3 (s C : Words4) (t69 t10 : UInt64) : UInt64 :=
  let (low03, high03) := umul128 s[0]! C[3]!
  let (c, t11) := addcarry64 false t10 low03
  let (_, t12) := addcarry64 c t69 high03
  let (low30, high30) := umul128 s[3]! C[0]!
  let (c, t13) := addcarry64 false t11 low30
  let (_, t14) := addcarry64 c t12 high30
  let (low12, high12) := umul128 s[1]! C[2]!
  let (c, t15) := addcarry64 false t13 low12
  let (_, t16) := addcarry64 c t14 high12
  let (low21, high21) := umul128 s[2]! C[1]!
  let (c, _) := addcarry64 false t15 low21
  c.toUInt64 + t16 + high21

/-- `mul_truncate` of the reference. -/
def mulTruncate (s C : Words4) : UInt64 :=
  let (t2, t3) := column1 s C
  let (t69, t10) := column2 s C t2 t3
  column3 s C t69 t10 + s[1]! * C[3]! + s[2]! * C[2]! + s[3]! * C[1]!

/-- A product added to a pair of words. -/
theorem addPair_of_eq {a b low high w z : UInt64} {c c' : Bool}
    (h0 : addcarry64 false a low = (c, w)) (h1 : addcarry64 c b high = (c', z)) :
    wide w z + 2 ^ 128 * c'.toNat = wide a b + (low.toNat + 2 ^ 64 * high.toNat) := by
  have e0 := addcarry64_of_eq h0
  have e1 := addcarry64_of_eq h1
  have hf : false.toNat = 0 := rfl
  simp only [wide]
  omega

theorem column1_eq (s C : Words4) : ∃ x < 2 ^ 64,
    (umul128 s[0]! C[0]!).2.toNat + s[1]!.toNat * C[0]!.toNat
        + s[0]!.toNat * C[1]!.toNat
      = x + 2 ^ 64 * wide (column1 s C).2 (column1 s C).1 := by
  rcases h00 : umul128 s[0]! C[0]! with ⟨low00, high00⟩
  rcases h10 : umul128 s[1]! C[0]! with ⟨low10, high10⟩
  rcases h01 : umul128 s[0]! C[1]! with ⟨low01, high01⟩
  rcases ha : addcarry64 false high00 low10 with ⟨c0, t0⟩
  rcases hb : addcarry64 c0 high10 0 with ⟨c1, t1⟩
  rcases hc : addcarry64 false t0 low01 with ⟨c2, x⟩
  rcases hd : addcarry64 c2 t1 high01 with ⟨t2, t3⟩
  have e10 := umul128_of_eq h10
  have e01 := umul128_of_eq h01
  have e0 := addPair_of_eq ha hb
  have e1 := addPair_of_eq hc hd
  have hroom := mul_toNat_le s[1]! C[0]!
  have hhigh00 := high00.toNat_lt
  have hlow10 := low10.toNat_lt
  have hz : (0 : UInt64).toNat = 0 := rfl
  have ht2 := toNat_toUInt64 t2
  refine ⟨x.toNat, x.toNat_lt, ?_⟩
  simp only [column1, h00, h10, h01, ha, hb, hc, hd]
  simp only [wide] at *
  omega

/-- What column 1 leaves, added to the largest product, fits in two words. -/
theorem wide_column1_le (s C : Words4) :
    wide (column1 s C).2 (column1 s C).1 + (2 ^ 64 - 1) * (2 ^ 64 - 1) < 2 ^ 128 := by
  obtain ⟨x, -, e⟩ := column1_eq s C
  have hhigh := (umul128 s[0]! C[0]!).2.toNat_lt
  have h10 := mul_toNat_le s[1]! C[0]!
  have h01 := mul_toNat_le s[0]! C[1]!
  omega

/-- No carry out of `t5` is lost. -/
theorem column2_eq (s C : Words4) {t2 t3 : UInt64}
    (h1 : wide t3 t2 + (2 ^ 64 - 1) * (2 ^ 64 - 1) < 2 ^ 128) : ∃ x < 2 ^ 64,
    wide t3 t2 + s[2]!.toNat * C[0]!.toNat + s[0]!.toNat * C[2]!.toNat
        + s[1]!.toNat * C[1]!.toNat
      = x + 2 ^ 64 * wide (column2 s C t2 t3).2 (column2 s C t2 t3).1 := by
  rcases h20 : umul128 s[2]! C[0]! with ⟨low20, high20⟩
  rcases h02 : umul128 s[0]! C[2]! with ⟨low02, high02⟩
  rcases h11 : umul128 s[1]! C[1]! with ⟨low11, high11⟩
  rcases ha : addcarry64 false t3 low20 with ⟨c0, t4⟩
  rcases hb : addcarry64 c0 t2 high20 with ⟨c1, t5⟩
  rcases hc : addcarry64 false t4 low02 with ⟨c2, t7⟩
  rcases hd : addcarry64 c2 t5 high02 with ⟨t6, t8⟩
  rcases he : addcarry64 false t7 low11 with ⟨c3, x⟩
  rcases hf : addcarry64 c3 t8 high11 with ⟨t9, t10⟩
  have e20 := umul128_of_eq h20
  have e02 := umul128_of_eq h02
  have e11 := umul128_of_eq h11
  have e0 := addPair_of_eq ha hb
  have e1 := addPair_of_eq hc hd
  have e2 := addPair_of_eq he hf
  have hroom := mul_toNat_le s[2]! C[0]!
  have ht6 := t6.toNat_le
  have ht9 := t9.toNat_le
  have ht69 : (t6.toUInt64 + t9.toUInt64).toNat = t6.toNat + t9.toNat := by
    rw [UInt64.toNat_add, toNat_toUInt64, toNat_toUInt64]
    omega
  refine ⟨x.toNat, x.toNat_lt, ?_⟩
  simp only [column2, h20, h02, h11, ha, hb, hc, hd, he, hf]
  simp only [wide] at *
  omega

/-- The carries out of column 4 have no word to go to. -/
theorem column3_eq (s C : Words4) (t69 t10 : UInt64) : ∃ x < 2 ^ 64, ∃ k,
    wide t10 t69 + s[0]!.toNat * C[3]!.toNat + s[3]!.toNat * C[0]!.toNat
        + s[1]!.toNat * C[2]!.toNat + s[2]!.toNat * C[1]!.toNat
      = x + 2 ^ 64 * (column3 s C t69 t10).toNat + 2 ^ 128 * k := by
  rcases h03 : umul128 s[0]! C[3]! with ⟨low03, high03⟩
  rcases h30 : umul128 s[3]! C[0]! with ⟨low30, high30⟩
  rcases h12 : umul128 s[1]! C[2]! with ⟨low12, high12⟩
  rcases h21 : umul128 s[2]! C[1]! with ⟨low21, high21⟩
  rcases ha : addcarry64 false t10 low03 with ⟨c0, t11⟩
  rcases hb : addcarry64 c0 t69 high03 with ⟨c1, t12⟩
  rcases hc : addcarry64 false t11 low30 with ⟨c2, t13⟩
  rcases hd : addcarry64 c2 t12 high30 with ⟨c3, t14⟩
  rcases he : addcarry64 false t13 low12 with ⟨c4, t15⟩
  rcases hf : addcarry64 c4 t14 high12 with ⟨c5, t16⟩
  rcases hg : addcarry64 false t15 low21 with ⟨c, x⟩
  have e03 := umul128_of_eq h03
  have e30 := umul128_of_eq h30
  have e12 := umul128_of_eq h12
  have e21 := umul128_of_eq h21
  have e0 := addPair_of_eq ha hb
  have e1 := addPair_of_eq hc hd
  have e2 := addPair_of_eq he hf
  have e3 := addcarry64_of_eq hg
  have hzero : false.toNat = 0 := rfl
  have hlast : (c.toUInt64 + t16 + high21).toNat
      = (c.toNat + t16.toNat + high21.toNat) % 2 ^ 64 := by
    rw [UInt64.toNat_add, UInt64.toNat_add, toNat_toUInt64]
    omega
  refine ⟨x.toNat, x.toNat_lt, c1.toNat + c3.toNat + c5.toNat
    + (c.toNat + t16.toNat + high21.toNat) / 2 ^ 64, ?_⟩
  simp only [column3, h03, h30, h12, h21, ha, hb, hc, hd, he, hf, hg]
  rw [hlast]
  simp only [wide] at *
  omega

/-- **`mul_truncate` of the reference is word 4 of the product**, for every constant. -/
theorem toNat_mulTruncate (s C : Words4) :
    (mulTruncate s C).toNat = Words.value s * Words.value C / 2 ^ 256 % 2 ^ 64 := by
  obtain ⟨x1, hx1, e1⟩ := column1_eq s C
  obtain ⟨x2, hx2, e2⟩ := column2_eq s C (wide_column1_le s C)
  obtain ⟨x3, hx3, k, e3⟩ := column3_eq s C (column2 s C (column1 s C).1 (column1 s C).2).1
    (column2 s C (column1 s C).1 (column1 s C).2).2
  have e0 := umul128_eq s[0]! C[0]!
  have hlow := (umul128 s[0]! C[0]!).1.toNat_lt
  rw [Words.value_mul_value]
  simp only [mulTruncate, UInt64.toNat_add, UInt64.toNat_mul]
  simp only [wide] at *
  omega

end Stock

/-- **The two truncated products are one.** -/
theorem mulTruncate_ell_eq (s : Words4) (j : Fin 4) :
    (mulTruncate s (ell.get j)).toNat
        = Words.value s * Words.value (ell.get j) / 2 ^ 256 % 2 ^ 64 ∧
      mulTruncate s (ell.get j) = Stock.mulTruncate s (ell.get j) := by
  have hport := toNat_mulTruncate s (ell.get j)
  have hstock := Stock.toNat_mulTruncate s (ell.get j)
  exact ⟨hport, UInt64.toNat_inj.mp (hport.trans hstock.symm)⟩

end ZkQuorum.Crypto
