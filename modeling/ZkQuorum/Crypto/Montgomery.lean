import ZkQuorum.Crypto.Truncate
import ZkQuorum.Crypto.Verify
import ZkQuorum.Lib.Montgomery

/-!
# Arithmetic modulo the curve order (crypto/src/riscv_fourq_verify.c)

`multiply` and `Montgomery_multiply_mod_order` of the port. A product is divided by 2^256
modulo the curve order: the low half times `MONTGOMERY_SMALL_R_PRIME` is the quotient, and what
is left is below twice the order (**`value_montgomeryMultiplyModOrder`**).

The reference has the same routine with all loops written out (`StockMontgomery`).
-/

namespace ZkQuorum.Crypto

/-- `MONTGOMERY_SMALL_R_PRIME_0` to `MONTGOMERY_SMALL_R_PRIME_3`. -/
def montgomerySmallRPrime : Words4 :=
  #v[0xE12FE5F079BC3929, 0xD75E78B8D1FCDCF3, 0xBCE409ED76B5DB21, 0xF32702FDAFC1C074]

/-- `Montgomery_Rprime`. -/
def montgomeryRprime : Words4 :=
  #v[0xC81DB8795FF3D621, 0x173EA5AAEA6B387D, 0x3D01B7C72136F61C, 0x0006A5F16AC8F9D3]

/-- `ONE`, as a scalar. -/
def scalarOne : Words4 := #v[1, 0, 0, 0]

/-! ## The routines -/

/-- `multiply`. -/
def multiply (a b : Words4) : Vector UInt64 8 := forRange 4 (.replicate 8 0) (mulRow a b)

/-- `r[i + j]`. -/
def lowCell (i : Fin 4) (j : Fin (4 - i)) : Fin 4 := ⟨i + j, by omega⟩

/-- `rp[j]`. -/
def lowColumn (i : Fin 4) (j : Fin (4 - i)) : Fin 4 := ⟨j, by omega⟩

/-- The inner loop of the quotient: the carry and `r`. -/
def lowStep (Pi : UInt64) (rp : Words4) (i : Fin 4) (st : UInt64 × Words4) (j : Fin (4 - i)) :
    UInt64 × Words4 :=
  let (carry, r) := st
  let (lo, hi) := umul128 Pi (rp.get (lowColumn i j))
  let (c1, t) := addcarry64 false (r.get (lowCell i j)) lo
  let (c2, t) := addcarry64 false t carry
  (hi + c1.toUInt64 + c2.toUInt64, r.set (lowCell i j).val t (lowCell i j).isLt)

/-- The outer loop of the quotient. The carry of a row is dropped. -/
def lowRow (P rp : Words4) (r : Words4) (i : Fin 4) : Words4 :=
  (forRange (4 - i) (0, r) (lowStep (P.get i) rp i)).2

/-- `Q`: the low four words of the product. -/
def lowProduct (P rp : Words4) : Words4 := forRange 4 (.replicate 4 0) (lowRow P rp)

/-- A line of the addition `P + temp`: the carry and the sum so far. -/
def addWord {n : Nat} (a b : Vector UInt64 n) (st : Bool × Vector UInt64 n) (i : Fin n) :
    Bool × Vector UInt64 n :=
  let (c, t) := addcarry64 st.1 (a.get i) (b.get i)
  (c, st.2.set i.val t i.isLt)

/-- The lines of an addition of n words. -/
def addWords {n : Nat} (a b : Vector UInt64 n) : Bool × Vector UInt64 n :=
  forRange n (false, .replicate n 0) (addWord a b)

/-- A line of a subtraction: the borrow and the difference so far. -/
def subWord {n : Nat} (a b : Vector UInt64 n) (st : Bool × Vector UInt64 n) (i : Fin n) :
    Bool × Vector UInt64 n :=
  let (c, t) := subborrow64 st.1 (a.get i) (b.get i)
  (c, st.2.set i.val t i.isLt)

/-- The lines of a subtraction of n words. -/
def subWords {n : Nat} (a b : Vector UInt64 n) : Bool × Vector UInt64 n :=
  forRange n (false, .replicate n 0) (subWord a b)

/-- Words 0 to 3 of 8. -/
def lowHalf (v : Vector UInt64 8) : Words4 := .ofFn fun i => v.get (Fin.castAdd 4 i)

/-- Words 4 to 7 of 8. -/
def highHalf (v : Vector UInt64 8) : Words4 := .ofFn fun i => v.get (Fin.natAdd 4 i)

/-- The words of `ma` in `P[0]` to `P[3]`, and zeros above them. -/
def widen (ma : Words4) : Vector UInt64 8 := #v[ma[0]!, ma[1]!, ma[2]!, ma[3]!, 0, 0, 0, 0]

/-- `P`: the product, or `ma` itself when `mb` is 1. -/
def factorProduct (ma mb : Words4) : Vector UInt64 8 :=
  if mb[0]! == 1 && mb[1]! == 0 && mb[2]! == 0 && mb[3]! == 0 then
    widen ma
  else multiply ma mb

/-- `temp[4..8] - order` with the order added back unless the carry of the sum pays for the
borrow. The source compares them as `(unsigned char)(add_carry - borrow)`. -/
def finalSubtraction (addCarry : Bool) (temp : Vector UInt64 8) : Words4 :=
  let (borrow, mc) := subWords (highHalf temp) curveOrder
  if addCarry != borrow then (addWords mc curveOrder).2 else mc

/-- `Montgomery_multiply_mod_order`. `mc` may be `ma`: `P` is complete before it is written. -/
def montgomeryMultiplyModOrder (ma mb : Words4) : Words4 :=
  let P := factorProduct ma mb
  let Q := lowProduct (lowHalf P) montgomerySmallRPrime
  let temp := multiply Q curveOrder
  let (addCarry, temp) := addWords P temp
  finalSubtraction addCarry temp

/-! ## Products -/

/-- **`multiply` is the product.** -/
theorem value_multiply (a b : Words4) :
    Words.value (multiply a b) = Words.value a * Words.value b := by
  have hempty : Words.value (Vector.replicate 8 (0 : UInt64)) = 0 := Words.value_replicate_zero
  have hsum : Words.value (multiply a b) = Words.value (Vector.replicate 8 (0 : UInt64))
      + ∑ i : Fin 4, (a.get i).toNat * 2 ^ (64 * i.val) * Words.value b :=
    forRange_sum (P := fun i prod => Words.value prod < 2 ^ (64 * (i + 4)))
      (m := fun _ prod => Words.value prod)
      (by rw [hempty, Nat.zero_add]; exact Nat.two_pow_pos _)
      (fun i prod h => mulRow_lt a b prod i h) fun i prod h => value_mulRow a b prod i h
  rw [hsum, hempty, Nat.zero_add, ← Finset.sum_mul]
  rfl

/-- A cell of a product: the old cell, the carry and the product of two words. -/
theorem cell_eq {x y cell carry lo hi t1 t2 : UInt64} {c1 c2 : Bool} (hm : umul128 x y = (lo, hi))
    (h1 : addcarry64 false cell lo = (c1, t1)) (h2 : addcarry64 false t1 carry = (c2, t2)) :
    t2.toNat + 2 ^ 64 * (hi + c1.toUInt64 + c2.toUInt64).toNat
      = cell.toNat + carry.toNat + x.toNat * y.toNat := by
  have em := umul128_of_eq hm
  have e1 := addcarry64_of_eq h1
  have e2 := addcarry64_of_eq h2
  have hcarry := carry.toNat_lt
  have hcell := cell.toNat_lt
  have hprod := mul_toNat_le x y
  have hf : false.toNat = 0 := rfl
  have ht2 := t2.toNat_lt
  have hnext : (hi + c1.toUInt64 + c2.toUInt64).toNat = hi.toNat + c1.toNat + c2.toNat := by
    rw [UInt64.toNat_add, UInt64.toNat_add, toNat_toUInt64, toNat_toUInt64]
    omega
  rw [hnext]
  omega

/-- What the cells and the carry of the quotient hold before column `j` of row `i`. -/
def lowValue (i j : Nat) (st : UInt64 × Words4) : Nat :=
  Words.value st.2 + st.1.toNat * 2 ^ (64 * (i + j))

theorem lowValue_lowStep (Pi : UInt64) (rp : Words4) (i : Fin 4) (st : UInt64 × Words4)
    (j : Fin (4 - i)) : lowValue i (j + 1) (lowStep Pi rp i st j)
      = lowValue i j st
        + Pi.toNat * (rp.get (lowColumn i j)).toNat * 2 ^ (64 * (i.val + j.val)) := by
  obtain ⟨carry, r⟩ := st
  rcases hm : umul128 Pi (rp.get (lowColumn i j)) with ⟨lo, hi⟩
  rcases h1 : addcarry64 false (r.get (lowCell i j)) lo with ⟨c1, t1⟩
  rcases h2 : addcarry64 false t1 carry with ⟨c2, t2⟩
  have hcol := cell_eq hm h1 h2
  have hset := Words.value_set r (lowCell i j) t2
  rw [show 64 * (lowCell i j : Nat) = 64 * (i.val + j.val) from rfl] at hset
  simp only [lowValue, lowStep, hm, h1, h2, ← Nat.add_assoc i.val, pow_next]
  generalize 2 ^ (64 * (i.val + j.val)) = W at *
  have hscaled : (t2.toNat + 2 ^ 64 * (hi + c1.toUInt64 + c2.toUInt64).toNat) * W
      = ((r.get (lowCell i j)).toNat + carry.toNat
        + Pi.toNat * (rp.get (lowColumn i j)).toNat) * W := by
    rw [hcol]
  linarith

/-- The columns that row `i` of the quotient leaves out are multiples of 2^256. -/
theorem sum_lowRow (Pi : UInt64) (rp : Words4) (i : Fin 4) : ∃ k,
    Pi.toNat * 2 ^ (64 * i.val) * Words.value rp
      = ∑ j : Fin (4 - i), Pi.toNat * (rp.get (lowColumn i j)).toNat * 2 ^ (64 * (i.val + j.val))
        + 2 ^ 256 * k := by
  let column (j : Nat) := Pi.toNat * rp[j]!.toNat * 2 ^ (64 * (i.val + j))
  have hget : ∀ j : Fin 4, rp[j.val]! = rp.get j := fun j => getElem!_pos rp j.val j.isLt
  have hall : Pi.toNat * 2 ^ (64 * i.val) * Words.value rp = ∑ j ∈ Finset.range 4, column j := by
    rw [Finset.sum_range, Words.value, Finset.mul_sum]
    refine Finset.sum_congr rfl fun j _ => ?_
    simp only [column, hget, Nat.mul_add, pow_add]
    ring
  have hrow : ∑ j : Fin (4 - i), Pi.toNat * (rp.get (lowColumn i j)).toNat
        * 2 ^ (64 * (i.val + j.val)) = ∑ j ∈ Finset.range (4 - i), column j := by
    rw [Finset.sum_range]
    refine Finset.sum_congr rfl fun j _ => ?_
    rw [← hget (lowColumn i j)]
    rfl
  have hsplit := Finset.sum_range_add column (4 - i) i
  have hrest : 2 ^ 256 ∣ ∑ x ∈ Finset.range i, column (4 - i + x) := by
    refine Finset.dvd_sum fun x _ => Dvd.dvd.mul_left ?_ _
    exact pow_dvd_pow 2 (by omega)
  obtain ⟨k, hk⟩ := hrest
  rw [Nat.sub_add_cancel (Nat.le_of_lt i.isLt), hk] at hsplit
  exact ⟨k, by rw [hall, hrow, hsplit]⟩

/-- A row of the quotient, modulo 2^256. -/
theorem value_lowRow (P rp r : Words4) (i : Fin 4) : Words.value (lowRow P rp r i)
    ≡ Words.value r + (P.get i).toNat * 2 ^ (64 * i.val) * Words.value rp [MOD 2 ^ 256] := by
  have hsum : lowValue i (4 - i) (forRange (4 - i) (0, r) (lowStep (P.get i) rp i))
      = lowValue i 0 (0, r) + ∑ j : Fin (4 - i),
        (P.get i).toNat * (rp.get (lowColumn i j)).toNat * 2 ^ (64 * (i.val + j.val)) :=
    forRange_sum (P := fun _ _ => True) trivial (fun _ _ _ => trivial)
      fun j st _ => lowValue_lowStep (P.get i) rp i st j
  obtain ⟨k, hk⟩ := sum_lowRow (P.get i) rp i
  rw [lowValue, lowValue, UInt64.toNat_zero, Nat.zero_mul, Nat.add_zero,
    show i.val + (4 - i.val) = 4 by omega, show 64 * 4 = 256 from rfl] at hsum
  -- the carry of the row and the columns it leaves out are multiples of 2^256
  rw [hk, ← Nat.add_assoc, ← hsum, Nat.mul_comm (2 ^ 256) k, Nat.add_assoc, ← Nat.add_mul]
  exact (Nat.add_mul_mod_self_right _ _ _).symm

/-- **The quotient is the low half of the product.** -/
theorem value_lowProduct (P rp : Words4) :
    Words.value (lowProduct P rp) = Words.value P * Words.value rp % 2 ^ 256 := by
  have hempty : Words.value (Vector.replicate 4 (0 : UInt64)) ≡ 0 [MOD 2 ^ 256] := by
    rw [Words.value_replicate_zero]
  have hsum : Words.value (lowProduct P rp)
      ≡ 0 + ∑ i : Fin 4, (P.get i).toNat * 2 ^ (64 * i.val) * Words.value rp [MOD 2 ^ 256] :=
    forRange_rel_sum (R := fun r a => Words.value r ≡ a [MOD 2 ^ 256]) hempty
      fun i r a h => (value_lowRow P rp r i).trans (h.add_right _)
  rw [Nat.zero_add, ← Finset.sum_mul] at hsum
  rw [← Nat.mod_eq_of_lt (Words.value_four_lt (lowProduct P rp))]
  exact hsum

/-! ## Sums and differences of words -/

section Words

variable {n : Nat}

theorem get_set_of_le {v : Vector UInt64 n} {i : Fin n} (t : UInt64)
    (h : ∀ j : Fin n, i.val ≤ j.val → v.get j = 0) (j : Fin n) (hj : i.val + 1 ≤ j.val) :
    (v.set i.val t i.isLt).get j = 0 := by
  have hne : (v.set i.val t i.isLt).get j = v.get j :=
    Vector.getElem_set_ne i.isLt j.isLt (by omega)
  rw [hne]
  exact h j (by omega)

theorem get_replicate_zero (j : Fin n) : (Vector.replicate n (0 : UInt64)).get j = 0 :=
  Vector.getElem_replicate j.isLt

/-- A word that is still 0 is written. -/
theorem value_set_zero {v : Vector UInt64 n} {i : Fin n} (t : UInt64)
    (h : ∀ j : Fin n, i.val ≤ j.val → v.get j = 0) :
    Words.value (v.set i.val t i.isLt) = Words.value v + t.toNat * 2 ^ (64 * i.val) := by
  have hset := Words.value_set v i t
  rw [h i (Nat.le_refl _), UInt64.toNat_zero, Nat.zero_mul, Nat.add_zero] at hset
  exact hset

/-- The sum so far, with its carry. -/
def sumValue (i : Nat) (st : Bool × Vector UInt64 n) : Nat :=
  Words.value st.2 + st.1.toNat * 2 ^ (64 * i)

/-- The words that are still to be written are 0. -/
def ZeroFrom (i : Nat) (st : Bool × Vector UInt64 n) : Prop :=
  ∀ j : Fin n, i ≤ j.val → st.2.get j = 0

theorem sumValue_addWord (a b : Vector UInt64 n) (i : Fin n) (st : Bool × Vector UInt64 n)
    (h : ZeroFrom i st) : sumValue (i + 1) (addWord a b st i)
      = sumValue i st + ((a.get i).toNat + (b.get i).toNat) * 2 ^ (64 * i.val) := by
  obtain ⟨c, v⟩ := st
  rcases hadd : addcarry64 c (a.get i) (b.get i) with ⟨c', t⟩
  have hline := addcarry64_of_eq hadd
  have hset := value_set_zero t h
  simp only [sumValue, addWord, hadd, hset, pow_next]
  generalize 2 ^ (64 * i.val) = W
  calc Words.value v + t.toNat * W + c'.toNat * (2 ^ 64 * W)
      = Words.value v + (t.toNat + 2 ^ 64 * c'.toNat) * W := by ring
    _ = _ := by
      rw [hline]
      ring

/-- **The lines of an addition.** -/
theorem value_addWords (a b : Vector UInt64 n) :
    Words.value (addWords a b).2 + (addWords a b).1.toNat * 2 ^ (64 * n)
      = Words.value a + Words.value b := by
  have hsum : sumValue n (addWords a b) = sumValue 0 (false, Vector.replicate n (0 : UInt64))
      + ∑ i : Fin n, ((a.get i).toNat + (b.get i).toNat) * 2 ^ (64 * i.val) :=
    forRange_sum (P := ZeroFrom) (fun j _ => get_replicate_zero j)
      (fun _ _ h => get_set_of_le _ h) fun i st h => sumValue_addWord a b i st h
  have hempty : sumValue 0 (false, Vector.replicate n (0 : UInt64)) = 0 := by
    rw [sumValue, Words.value_replicate_zero, Bool.toNat_false, Nat.zero_mul]
  rw [hempty, Nat.zero_add] at hsum
  simp only [Nat.add_mul, Finset.sum_add_distrib] at hsum
  exact hsum

/-- The difference so far, with its borrow. -/
def differenceValue (i : Nat) (st : Bool × Vector UInt64 n) : Int :=
  (Words.value st.2 : Int) - st.1.toNat * 2 ^ (64 * i)

theorem differenceValue_subWord (a b : Vector UInt64 n) (i : Fin n) (st : Bool × Vector UInt64 n)
    (h : ZeroFrom i st) : differenceValue (i + 1) (subWord a b st i) = differenceValue i st
      + (((a.get i).toNat * 2 ^ (64 * i.val) : Nat)
        - ((b.get i).toNat * 2 ^ (64 * i.val) : Nat)) := by
  obtain ⟨c, v⟩ := st
  rcases hsub : subborrow64 c (a.get i) (b.get i) with ⟨c', t⟩
  have hline := subborrow64_of_eq hsub
  have hset := value_set_zero t h
  have hpow : (2 : Int) ^ (64 * (i.val + 1)) = 2 ^ 64 * 2 ^ (64 * i.val) := by
    rw [Nat.mul_add, pow_add, mul_comm]
  simp only [differenceValue, subWord, hsub, hset]
  push_cast
  rw [hpow]
  generalize (2 : Int) ^ (64 * i.val) = W
  zify at hline
  linear_combination W * hline

/-- **The lines of a subtraction.** -/
theorem value_subWords (a b : Vector UInt64 n) :
    Words.value (subWords a b).2 + Words.value b
      = Words.value a + (subWords a b).1.toNat * 2 ^ (64 * n) := by
  have hsum : differenceValue n (subWords a b)
      = differenceValue 0 (false, Vector.replicate n (0 : UInt64))
        + ∑ i : Fin n, (((a.get i).toNat * 2 ^ (64 * i.val) : Nat)
          - ((b.get i).toNat * 2 ^ (64 * i.val) : Nat) : Int) :=
    forRange_sum (P := ZeroFrom) (fun j _ => get_replicate_zero j)
      (fun _ _ h => get_set_of_le _ h) fun i st h => differenceValue_subWord a b i st h
  have hempty : differenceValue 0 (false, Vector.replicate n (0 : UInt64)) = 0 := by
    rw [differenceValue, Words.value_replicate_zero, Bool.toNat_false]
    simp
  rw [hempty, zero_add, Finset.sum_sub_distrib, ← Nat.cast_sum, ← Nat.cast_sum] at hsum
  have hdiff : (Words.value (subWords a b).2 : Int) - (subWords a b).1.toNat * 2 ^ (64 * n)
      = Words.value a - Words.value b := hsum
  zify
  linear_combination hdiff

end Words

/-! ## The reduction -/

/-- The curve order. -/
abbrev orderNat : Nat := Words.value curveOrder

/-- The number of `MONTGOMERY_SMALL_R_PRIME`. -/
abbrev smallRPrimeNat : Nat := Words.value montgomerySmallRPrime

theorem isNegInverse_order : Montgomery.IsNegInverse orderNat (2 ^ 256) smallRPrimeNat := by
  unfold Montgomery.IsNegInverse
  decide +kernel

theorem order_bounds : 0 < orderNat ∧ 2 * orderNat < 2 ^ 256 := by
  decide +kernel

theorem order_odd : orderNat % 2 = 1 := by decide +kernel

theorem get_lowHalf (v : Vector UInt64 8) (i : Fin 4) :
    (lowHalf v).get i = v.get (Fin.castAdd 4 i) :=
  Vector.getElem_ofFn i.isLt

theorem get_highHalf (v : Vector UInt64 8) (i : Fin 4) :
    (highHalf v).get i = v.get (Fin.natAdd 4 i) :=
  Vector.getElem_ofFn i.isLt

theorem value_halves (v : Vector UInt64 8) :
    Words.value v = Words.value (lowHalf v) + 2 ^ 256 * Words.value (highHalf v) := by
  have hsplit := Fin.sum_univ_add (a := 4) (b := 4)
    fun i : Fin 8 => (v.get i).toNat * 2 ^ (64 * i.val)
  rw [Words.value, Words.value, Words.value, Finset.mul_sum]
  refine hsplit.trans (congrArg₂ (· + ·) ?_ ?_)
  · refine Finset.sum_congr rfl fun i _ => ?_
    rw [get_lowHalf]
    rfl
  · refine Finset.sum_congr rfl fun i _ => ?_
    rw [get_highHalf]
    show (v.get (Fin.natAdd 4 i)).toNat * 2 ^ (64 * (4 + i.val)) = _
    rw [Nat.mul_add, pow_add]
    ring

/-- Four words with four zeros above them. -/
theorem value_widen (v : Words4) : Words.value (widen v) = Words.value v := by
  have hlow : lowHalf (widen v) = v := by
    refine Vector.ext fun i hi => ?_
    have hget : (lowHalf (widen v))[i] = v[i]! := by
      match i, hi with
      | 0, _ => rfl
      | 1, _ => rfl
      | 2, _ => rfl
      | 3, _ => rfl
    rw [hget, getElem!_pos v i hi]
  have hhigh : highHalf (widen v) = Vector.replicate 4 0 := rfl
  rw [value_halves, hlow, hhigh, Words.value_replicate_zero, Nat.mul_zero, Nat.add_zero]

/-- The test of `mb` for 1 only saves the product. -/
theorem value_factorProduct (ma mb : Words4) :
    Words.value (factorProduct ma mb) = Words.value ma * Words.value mb := by
  rw [factorProduct]
  split
  · rename_i hone
    simp only [Bool.and_eq_true, beq_iff_eq] at hone
    obtain ⟨⟨⟨h0, h1⟩, h2⟩, h3⟩ := hone
    have hmb : Words.value mb = 1 := by
      rw [Words.value_four, h0, h1, h2, h3]
      simp
    rw [hmb, Nat.mul_one, value_widen]
  · exact value_multiply ma mb

theorem pow_eight : 2 ^ (64 * 8) = 2 ^ 256 * 2 ^ 256 := by
  rw [show 64 * 8 = 256 + 256 from rfl, pow_add]

/-- The sum that is divided by 2^256, with the carry of the addition. -/
theorem completed_eq {P : Vector UInt64 8} {addCarry : Bool} {temp : Vector UInt64 8}
    (h : addWords P (multiply (lowProduct (lowHalf P) montgomerySmallRPrime) curveOrder)
      = (addCarry, temp)) :
    Words.value temp + addCarry.toNat * (2 ^ 256 * 2 ^ 256)
      = Montgomery.completed orderNat (2 ^ 256) smallRPrimeNat (Words.value P) := by
  have hsum := value_addWords P (multiply (lowProduct (lowHalf P) montgomerySmallRPrime) curveOrder)
  rw [h, value_multiply, value_lowProduct, pow_eight] at hsum
  have hlow : Words.value (lowHalf P) * smallRPrimeNat % 2 ^ 256
      = Montgomery.quotient (2 ^ 256) smallRPrimeNat (Words.value P) := by
    rw [Montgomery.quotient, value_halves P, Nat.add_mul, Nat.mul_assoc, Nat.add_mul_mod_self_left]
  rw [hlow] at hsum
  exact hsum

/-- The final subtraction, below twice the order. -/
theorem value_finalSubtraction {addCarry : Bool} {temp : Vector UInt64 8} {t : Nat}
    (ht : Words.value (highHalf temp) + addCarry.toNat * 2 ^ 256 = t) (hlt : t < 2 * orderNat) :
    Words.value (finalSubtraction addCarry temp) = if t < orderNat then t else t - orderNat := by
  obtain ⟨hpos, hroom⟩ := order_bounds
  have hhigh := Words.value_four_lt (highHalf temp)
  -- twice the order is below 2^256, so the addition has no carry
  have hcarry : addCarry = false := by
    cases addCarry with
    | false => rfl
    | true =>
      rw [Bool.toNat_true] at ht
      omega
  subst hcarry
  rw [Bool.toNat_false, Nat.zero_mul, Nat.add_zero] at ht
  rcases hmc : subWords (highHalf temp) curveOrder with ⟨borrow, mc⟩
  have hsub : Words.value mc + orderNat = t + borrow.toNat * 2 ^ 256 := by
    have h := value_subWords (highHalf temp) curveOrder
    rwa [hmc, ht] at h
  have hmclt := Words.value_four_lt mc
  simp only [finalSubtraction, hmc]
  cases borrow with
  | false =>
    rw [Bool.toNat_false, Nat.zero_mul, Nat.add_zero] at hsub
    rw [if_neg (by decide), if_neg (by omega)]
    omega
  | true =>
    have hadd : Words.value (addWords mc curveOrder).2
        + (addWords mc curveOrder).1.toNat * 2 ^ 256 = Words.value mc + orderNat :=
      value_addWords mc curveOrder
    have haddlt := Words.value_four_lt (addWords mc curveOrder).2
    rw [Bool.toNat_true, Nat.one_mul] at hsub
    have hbit := (addWords mc curveOrder).1.toNat_le
    rw [if_pos (by decide), if_pos (by omega)]
    omega

/-- **`Montgomery_multiply_mod_order`** divides the product by 2^256 modulo the curve order, for
every factor `mb` below the order. -/
theorem value_montgomeryMultiplyModOrder (ma : Words4) {mb : Words4}
    (hmb : Words.value mb < orderNat) : Words.value (montgomeryMultiplyModOrder ma mb)
      = Montgomery.reduce orderNat (2 ^ 256) smallRPrimeNat (Words.value ma * Words.value mb) := by
  have hma := Words.value_four_lt ma
  have hproduct := value_factorProduct ma mb
  have hbound : Words.value (factorProduct ma mb) < orderNat * 2 ^ 256 := by
    rw [hproduct, Nat.mul_comm]
    exact Nat.mul_lt_mul'' hmb hma
  rcases hadd : addWords (factorProduct ma mb)
    (multiply (lowProduct (lowHalf (factorProduct ma mb)) montgomerySmallRPrime) curveOrder)
    with ⟨addCarry, temp⟩
  have hcompleted := completed_eq hadd
  have hlt : Montgomery.completed orderNat (2 ^ 256) smallRPrimeNat
      (Words.value (factorProduct ma mb)) < 2 * orderNat * 2 ^ 256 :=
    Montgomery.completed_lt (Nat.two_pow_pos 256) order_bounds.1 hbound
  have hlow := Words.value_four_lt (lowHalf temp)
  rw [value_halves temp] at hcompleted
  have hdiv : Words.value (highHalf temp) + addCarry.toNat * 2 ^ 256
      = Montgomery.completed orderNat (2 ^ 256) smallRPrimeNat (Words.value (factorProduct ma mb))
        / 2 ^ 256 := by
    omega
  have hfinal := value_finalSubtraction hdiv (by
    rw [Nat.div_lt_iff_lt_mul (Nat.two_pow_pos 256)]
    exact hlt)
  simp only [montgomeryMultiplyModOrder, hadd]
  rw [hfinal, Montgomery.reduce, hproduct]

end ZkQuorum.Crypto
