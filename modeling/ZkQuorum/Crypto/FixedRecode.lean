import ZkQuorum.Crypto.StockMontgomery
import ZkQuorum.Lib.SignedComb

/-!
# The recoding of a fixed-base scalar (crypto/src/stock_qubic.c)

The first half of `ecc_mul_fixed`: the scalar modulo the order, made odd, then 50 signs and 200
bits. The digits are those of a signed comb of 50 columns (**`isRecoding_recode`**), so that they
spell the scalar (`Lib.SignedComb`). A digit carries the values it can have, and with them the bound
of the table index.
-/

namespace ZkQuorum.Crypto.Stock

/-- `__shiftright128`: the low word of the shifted pair. -/
def shiftright128 (low high : UInt64) (shift : Nat) : UInt64 :=
  UInt64.ofNat (wide low high / 2 ^ (shift % 64))

/-- The four lines that shift the scalar to the right by 1. -/
def shiftScalar (scalar : Words4) : Words4 :=
  #v[shiftright128 scalar[0]! scalar[1]! 1, shiftright128 scalar[1]! scalar[2]! 1,
    shiftright128 scalar[2]! scalar[3]! 1, scalar[3]! >>> 1]

/-- The scalar modulo the order, or plus the order when that is even. -/
def oddScalar (k : Words4) : Words4 :=
  let scalar := modOrder k
  if scalar[0]! &&& 1 = 0 then (addWords scalar curveOrder).2 else scalar

/-- A digit of the sign row: 0, or -1 as an `unsigned int`. -/
abbrev SignDigit := { s : UInt32 // s = 0 ∨ s = 0xFFFFFFFF }

/-- A digit of the other rows. -/
abbrev BitDigit := { b : UInt32 // b = 0 ∨ b = 1 }

theorem low_bit (w : UInt64) : w &&& 1 = 0 ∨ w &&& 1 = 1 := by
  have h := toNat_and_mask (n := 1) (m := 1) w rfl
  rcases Nat.mod_two_eq_zero_or_one w.toNat with hbit | hbit
  · left
    rw [← UInt64.toNat_inj, h, pow_one, hbit]
    rfl
  · right
    rw [← UInt64.toNat_inj, h, pow_one, hbit]
    rfl

theorem signDigit_cases (w : UInt64) :
    ((w &&& 1) - 1).toUInt32 = 0 ∨ ((w &&& 1) - 1).toUInt32 = 0xFFFFFFFF := by
  rcases low_bit w with h | h
  · right
    rw [h]
    rfl
  · left
    rw [h]
    rfl

theorem bitDigit_cases (w : UInt64) : (w &&& 1).toUInt32 = 0 ∨ (w &&& 1).toUInt32 = 1 := by
  rcases low_bit w with h | h
  · left
    rw [h]
    rfl
  · right
    rw [h]
    rfl

/-- `(unsigned int)((scalar[0] & 1) - 1)`. -/
def signDigit (w : UInt64) : SignDigit := ⟨((w &&& 1) - 1).toUInt32, signDigit_cases w⟩

/-- `(unsigned int)(scalar[0] & 1)`. -/
def bitDigit (w : UInt64) : BitDigit := ⟨(w &&& 1).toUInt32, bitDigit_cases w⟩

/-- The zero digit of the sign row. -/
def SignDigit.zero : SignDigit := ⟨0, .inl rfl⟩

/-- The zero digit of the other rows. -/
def BitDigit.zero : BitDigit := ⟨0, .inl rfl⟩

/-- `digits`: 0 to 49 are signs, 50 to 249 bits. -/
structure FixedDigits where
  signs : Vector SignDigit 50
  bits : Vector BitDigit 200

/-- The loop over `i < 49`: the scalar and the signs. -/
def signStep (st : Words4 × Vector SignDigit 50) (i : Fin 49) : Words4 × Vector SignDigit 50 :=
  let (scalar, signs) := st
  let signs := signs.set i.castSucc.val (signDigit scalar[0]!) i.castSucc.isLt
  (shiftScalar scalar, signs)

/-- `i - (i / 50) * 50` for the digit i = 50 + n. -/
def signIndex (n : Fin 200) : Fin 50 := ⟨50 + n - (50 + n) / 50 * 50, by omega⟩

/-- `floor(scalar/2) + temp`, the addition to the words. -/
def addTemp (scalar : Words4) (temp : UInt64) : Words4 :=
  let scalar0 := scalar[0]! + temp
  let carry := if scalar0 ≠ 0 then 0 else temp &&& 1
  let scalar1 := scalar[1]! + carry
  let carry := if scalar1 ≠ 0 then 0 else carry &&& 1
  let scalar2 := scalar[2]! + carry
  let scalar3 := scalar[3]! + if scalar2 ≠ 0 then 0 else carry &&& 1
  #v[scalar0, scalar1, scalar2, scalar3]

/-- The loop over `50 <= i < 250`: the scalar and the bits. -/
def bitStep (signs : Vector SignDigit 50) (st : Words4 × Vector BitDigit 200) (n : Fin 200) :
    Words4 × Vector BitDigit 200 :=
  let (scalar, bits) := st
  let digit := bitDigit scalar[0]!
  let bits := bits.set n.val digit n.isLt
  let scalar := shiftScalar scalar
  let temp := ((0 - (signs.get (signIndex n)).val) &&& digit.val).toUInt64
  (addTemp scalar temp, bits)

/-- `digits[49] = 0`. -/
def withLastSign (signs : Vector SignDigit 50) : Vector SignDigit 50 :=
  signs.set (Fin.last 49).val SignDigit.zero (Fin.last 49).isLt

/-- The rows of bits. -/
def bitRows (signs : Vector SignDigit 50) (scalar : Words4) : Vector BitDigit 200 :=
  (forRange 200 (scalar, .replicate 200 BitDigit.zero) (bitStep signs)).2

/-- The digits of an odd scalar. -/
def recodeOdd (scalar : Words4) : FixedDigits :=
  let st := forRange 49 (shiftScalar scalar, .replicate 50 SignDigit.zero) signStep
  let signs := withLastSign st.2
  { signs, bits := bitRows signs st.1 }

/-- `ecc_mul_fixed` up to the table: the digits of a 256-bit number. -/
def recode (k : Words4) : FixedDigits := recodeOdd (oddScalar k)

/-! ## The words -/

theorem toNat_shiftright128_one (low high : UInt64) :
    (shiftright128 low high 1).toNat = low.toNat / 2 + high.toNat % 2 * 2 ^ 63 := by
  have hlow := low.toNat_lt
  have hhigh := high.toNat_lt
  rw [shiftright128, UInt64.toNat_ofNat', wide]
  show (_ + 2 ^ 64 * _) / 2 ^ 1 % 2 ^ 64 = _
  omega

theorem value_shiftScalar (scalar : Words4) :
    Words.value (shiftScalar scalar) = Words.value scalar / 2 := by
  have h3 : (scalar[3]! >>> 1).toNat = scalar[3]!.toNat / 2 :=
    toNat_shiftRight _ (show 1 < 64 by decide)
  have hvalue : Words.value (shiftScalar scalar)
      = (shiftright128 scalar[0]! scalar[1]! 1).toNat
        + (shiftright128 scalar[1]! scalar[2]! 1).toNat * 2 ^ 64
        + (shiftright128 scalar[2]! scalar[3]! 1).toNat * 2 ^ 128
        + (scalar[3]! >>> 1).toNat * 2 ^ 192 :=
    Words.value_four _
  rw [hvalue, Words.value_four scalar, h3]
  simp only [toNat_shiftright128_one]
  omega

theorem value_mod_two (scalar : Words4) : Words.value scalar % 2 = scalar[0]!.toNat % 2 := by
  rw [Words.value_four]
  omega

/-- A word that a carry overflows is 0 after it. -/
theorem toNat_add_carry (w : UInt64) {c : UInt64} (hc : c.toNat ≤ 1) : (w + c).toNat
    + 2 ^ 64 * (if w + c ≠ 0 then (0 : UInt64) else c &&& 1).toNat = w.toNat + c.toNat := by
  have hw := w.toNat_lt
  have hbit : (c &&& 1).toNat = c.toNat := by
    rw [toNat_and_mask (n := 1) c rfl]
    omega
  have hzero : w + c = 0 ↔ (w.toNat + c.toNat) % 2 ^ 64 = 0 := by
    rw [← UInt64.toNat_inj, UInt64.toNat_add]
    rfl
  split
  · rename_i hne
    rw [Ne, hzero] at hne
    rw [UInt64.toNat_add, UInt64.toNat_zero]
    omega
  · rename_i heq
    rw [Ne, hzero, not_not] at heq
    rw [UInt64.toNat_add, hbit]
    omega

theorem toNat_carry_le (w c : UInt64) :
    (if w ≠ 0 then (0 : UInt64) else c &&& 1).toNat ≤ 1 := by
  split
  · exact Nat.zero_le 1
  · rw [toNat_and_mask (n := 1) c rfl]
    omega

/-- The words after the addition, as long as it stays below 2^256. -/
theorem value_addTemp (scalar : Words4) {temp : UInt64} (ht : temp.toNat ≤ 1)
    (hlt : Words.value scalar + 1 < 2 ^ 256) :
    Words.value (addTemp scalar temp) = Words.value scalar + temp.toNat := by
  have h0 := toNat_add_carry scalar[0]! ht
  have hc0 := toNat_carry_le (scalar[0]! + temp) temp
  generalize hcarry0 : (if scalar[0]! + temp ≠ 0 then (0 : UInt64) else temp &&& 1) = carry0 at *
  have h1 := toNat_add_carry scalar[1]! hc0
  have hc1 := toNat_carry_le (scalar[1]! + carry0) carry0
  generalize hcarry1 : (if scalar[1]! + carry0 ≠ 0 then (0 : UInt64) else carry0 &&& 1)
    = carry1 at *
  have h2 := toNat_add_carry scalar[2]! hc1
  have hc2 := toNat_carry_le (scalar[2]! + carry1) carry1
  generalize hcarry2 : (if scalar[2]! + carry1 ≠ 0 then (0 : UInt64) else carry1 &&& 1)
    = carry2 at *
  have h3 : (scalar[3]! + carry2).toNat = (scalar[3]!.toNat + carry2.toNat) % 2 ^ 64 :=
    UInt64.toNat_add _ _
  have hvalue : Words.value (addTemp scalar temp) = (scalar[0]! + temp).toNat
      + (scalar[1]! + carry0).toNat * 2 ^ 64 + (scalar[2]! + carry1).toNat * 2 ^ 128
      + (scalar[3]! + carry2).toNat * 2 ^ 192 := by
    rw [Words.value_four]
    simp only [addTemp, hcarry0, hcarry1, hcarry2]
    rfl
  rw [Words.value_four] at hlt
  rw [hvalue, Words.value_four]
  omega

/-! ## The digits -/

theorem signDigit_ne_zero (w : UInt64) : (signDigit w).val ≠ 0 ↔ w.toNat % 2 = 0 := by
  have h := and_one_eq_zero_iff w
  rw [← h]
  rcases low_bit w with hbit | hbit
  · simp [signDigit, hbit]
  · simp [signDigit, hbit]

theorem toNat_bitDigit (w : UInt64) : (bitDigit w).val.toNat = w.toNat % 2 := by
  have h := and_one_eq_zero_iff w
  rcases low_bit w with hbit | hbit
  · rw [h.mp hbit]
    simp [bitDigit, hbit]
  · rw [hbit] at h
    have hodd : w.toNat % 2 = 1 := Nat.mod_two_ne_zero.mp fun h0 => absurd (h.mpr h0) (by decide)
    rw [hodd]
    simp [bitDigit, hbit]

/-- `temp`: 1 when the digit counts as -1. -/
theorem toNat_temp (s : SignDigit) (b : BitDigit) : ((0 - s.val) &&& b.val).toUInt64.toNat
    = if s.val ≠ 0 then b.val.toNat else 0 := by
  obtain ⟨s, rfl | rfl⟩ := s
  · obtain ⟨b, rfl | rfl⟩ := b
    · rfl
    · rfl
  · obtain ⟨b, rfl | rfl⟩ := b
    · rfl
    · rfl

theorem BitDigit.toNat_le (b : BitDigit) : b.val.toNat ≤ 1 := by
  obtain ⟨b, rfl | rfl⟩ := b
  · exact Nat.zero_le 1
  · exact Nat.le_refl 1

/-- The digits are those of the comb. -/
structure IsRecoding (d : FixedDigits) (k : Nat) : Prop where
  signs : ∀ j : Fin 50, (d.signs.get j).val ≠ 0 ↔ SignedComb.negative 50 k j = true
  bits : ∀ n : Fin 200, (d.bits.get n).val.toNat = SignedComb.rest 50 k n % 2

section Loops

variable {k : Nat}

theorem get_set_self {α : Type} {n : Nat} (v : Vector α n) (i : Fin n) (a : α) :
    (v.set i.val a i.isLt).get i = a := Vector.getElem_set_self i.isLt

theorem get_set_ne {α : Type} {n : Nat} (v : Vector α n) {i j : Fin n} (a : α) (h : j ≠ i) :
    (v.set i.val a i.isLt).get j = v.get j :=
  Vector.getElem_set_ne i.isLt j.isLt fun heq => h (Fin.ext heq.symm)

/-- Before turn i of the loop over the signs. -/
structure SignsRead (k i : Nat) (st : Words4 × Vector SignDigit 50) : Prop where
  scalar : Words.value st.1 = k / 2 ^ (i + 1)
  signs : ∀ j : Fin 50, j.val < i →
    ((st.2.get j).val ≠ 0 ↔ SignedComb.negative 50 k j = true)

theorem SignsRead.step {i : Fin 49} {st : Words4 × Vector SignDigit 50} (h : SignsRead k i st) :
    SignsRead k (i + 1) (signStep st i) := by
  refine { scalar := ?_, signs := fun j hj => ?_ }
  · show Words.value (shiftScalar st.1) = _
    rw [value_shiftScalar, h.scalar, Nat.div_div_eq_div_mul, ← pow_succ]
  show ((st.2.set i.castSucc.val (signDigit st.1[0]!) i.castSucc.isLt).get j).val ≠ 0 ↔ _
  by_cases hij : j = i.castSucc
  · subst hij
    rw [get_set_self, signDigit_ne_zero, ← value_mod_two, h.scalar, SignedComb.negative,
      decide_eq_true (by rw [Fin.val_castSucc]; omega), Bool.true_and,
      Nat.testBit_eq_decide_div_mod_eq, Fin.val_castSucc]
    simp
  · have hlt : j.val < i := by
      have hne : j.val ≠ i := fun heq => hij (Fin.ext heq)
      omega
    rw [get_set_ne _ _ hij]
    exact h.signs j hlt

/-- Before turn n of the loop over the bits. -/
structure BitsRead (k n : Nat) (st : Words4 × Vector BitDigit 200) : Prop where
  scalar : Words.value st.1 = SignedComb.rest 50 k n
  bits : ∀ m : Fin 200, m.val < n → (st.2.get m).val.toNat = SignedComb.rest 50 k m % 2

theorem BitsRead.step {signs : Vector SignDigit 50}
    (hsigns : ∀ j : Fin 50, (signs.get j).val ≠ 0 ↔ SignedComb.negative 50 k j = true)
    {n : Fin 200} {st : Words4 × Vector BitDigit 200} (h : BitsRead k n st) :
    BitsRead k (n + 1) (bitStep signs st n) := by
  -- the scalar is shifted, and 1 is added when the sign and the bit ask for it
  have hscalar : Words.value (bitStep signs st n).1 = SignedComb.rest 50 k (n + 1) := by
    have hindex : (signIndex n).val = n.val % 50 := by
      show 50 + n.val - (50 + n.val) / 50 * 50 = n.val % 50
      omega
    have htemp := toNat_temp (signs.get (signIndex n)) (bitDigit st.1[0]!)
    have hbit := (bitDigit st.1[0]!).toNat_le
    have hshift := value_shiftScalar st.1
    have hlt := Words.value_four_lt st.1
    have hone : (((0 : UInt32) - (signs.get (signIndex n)).val)
        &&& (bitDigit st.1[0]!).val).toUInt64.toNat
        ≤ 1 := by
      rw [htemp]
      split
      · exact hbit
      · exact Nat.zero_le 1
    have hadd := value_addTemp (shiftScalar st.1) hone (by omega)
    refine hadd.trans ?_
    rw [htemp, hshift, toNat_bitDigit, ← value_mod_two, h.scalar, SignedComb.rest,
      SignedComb.next, ← hindex, if_congr (hsigns (signIndex n)) rfl rfl]
  refine { scalar := hscalar, bits := fun m hm => ?_ }
  show ((st.2.set n.val (bitDigit st.1[0]!) n.isLt).get m).val.toNat = _
  -- the digit that is written, and those before it
  by_cases hmn : m = n
  · subst hmn
    rw [get_set_self, toNat_bitDigit, ← value_mod_two, h.scalar]
  · have hlt : m.val < n := by
      have hne : m.val ≠ n := fun heq => hmn (Fin.ext heq)
      omega
    rw [get_set_ne _ _ hmn]
    exact h.bits m hlt

end Loops

/-- The loop over the signs, and the sign written after it. -/
theorem signsRead (scalar : Words4) : SignsRead (Words.value scalar) 49
    (forRange 49 (shiftScalar scalar, .replicate 50 SignDigit.zero) signStep) := by
  apply forRange_induction (P := SignsRead (Words.value scalar))
  · refine { scalar := ?_, signs := fun j hj => absurd hj (Nat.not_lt_zero j) }
    rw [value_shiftScalar, Nat.zero_add, pow_one]
  · exact fun i st h => h.step

theorem SignsRead.all {k : Nat} {st : Words4 × Vector SignDigit 50} (h : SignsRead k 49 st)
    (j : Fin 50) : ((withLastSign st.2).get j).val ≠ 0 ↔
      SignedComb.negative 50 k j = true := by
  by_cases hj : j = Fin.last 49
  · subst hj
    have hlast : (withLastSign st.2).get (Fin.last 49) = SignDigit.zero :=
      get_set_self st.2 (Fin.last 49) SignDigit.zero
    have hneg : SignedComb.negative 50 k (Fin.last 49) = false := SignedComb.negative_last 50 k
    rw [hlast, hneg]
    simp [SignDigit.zero]
  · have hget : (withLastSign st.2).get j = st.2.get j :=
      get_set_ne st.2 SignDigit.zero hj
    have hne : j.val ≠ 49 := fun heq => hj (Fin.ext heq)
    rw [hget]
    exact h.signs j (by omega)

/-- The loop over the bits. -/
theorem toNat_bitRows {k : Nat} {signs : Vector SignDigit 50} {scalar : Words4}
    (hscalar : Words.value scalar = SignedComb.rest 50 k 0)
    (hsigns : ∀ j : Fin 50, (signs.get j).val ≠ 0 ↔ SignedComb.negative 50 k j = true)
    (n : Fin 200) : ((bitRows signs scalar).get n).val.toNat = SignedComb.rest 50 k n % 2 := by
  have hread : BitsRead k 200
      (forRange 200 (scalar, .replicate 200 BitDigit.zero) (bitStep signs)) := by
    apply forRange_induction (P := BitsRead k)
    · exact { scalar := hscalar, bits := fun m hm => absurd hm (Nat.not_lt_zero m) }
    · exact fun n st h => h.step hsigns
  exact hread.bits n n.isLt

/-- **The digits of an odd scalar.** -/
theorem isRecoding_recodeOdd (scalar : Words4) :
    IsRecoding (recodeOdd scalar) (Words.value scalar) := by
  have hread := signsRead scalar
  have hscalar := hread.scalar
  rw [show 49 + 1 = 50 from rfl, ← SignedComb.rest] at hscalar
  refine { signs := hread.all, bits := fun n => ?_ }
  simp only [recodeOdd]
  exact toNat_bitRows hscalar hread.all n

/-! ## The odd scalar -/

/-- The scalar that is recoded: odd, below twice the order, and the number modulo the order. -/
theorem oddScalar_spec (k : Words4) : Words.value (oddScalar k) % 2 = 1 ∧
    Words.value (oddScalar k) < 2 * orderNat ∧
    Words.value (oddScalar k) ≡ Words.value k [MOD orderNat] := by
  obtain ⟨hpos, hroom⟩ := order_bounds
  have hmod := value_modOrder k
  have hlt : Words.value (modOrder k) < orderNat := by
    rw [hmod]
    exact Nat.mod_lt _ hpos
  have hmodEq : Words.value (modOrder k) ≡ Words.value k [MOD orderNat] := by
    rw [hmod]
    exact Nat.mod_modEq _ _
  have hparity := value_mod_two (modOrder k)
  have hodd := order_odd
  rw [oddScalar]
  split
  -- an even scalar: the order is added, without a carry
  · rename_i heven
    rw [and_one_eq_zero_iff] at heven
    have hadd : Words.value (addWords (modOrder k) curveOrder).2
        + (addWords (modOrder k) curveOrder).1.toNat * 2 ^ 256
        = Words.value (modOrder k) + orderNat := value_addWords _ _
    have hlt' := Words.value_four_lt (addWords (modOrder k) curveOrder).2
    have hvalue : Words.value (addWords (modOrder k) curveOrder).2
        = Words.value (modOrder k) + orderNat := by
      omega
    rw [hvalue]
    refine ⟨by omega, by omega, ?_⟩
    exact Nat.ModEq.trans (Nat.add_mod_right _ _) hmodEq
  -- an odd scalar stays
  · rename_i hne
    rw [and_one_eq_zero_iff] at hne
    exact ⟨by omega, by omega, hmodEq⟩

/-- The scalar and its digits. -/
theorem isRecoding_recode (k : Words4) : IsRecoding (recode k) (Words.value (oddScalar k)) :=
  isRecoding_recodeOdd (oddScalar k)

/-- What a sign digit counts. -/
def SignDigit.toInt (s : SignDigit) : Int := if s.val ≠ 0 then -1 else 1

/-- The sign of the comb. -/
theorem IsRecoding.toInt_sign {d : FixedDigits} {k : Nat} (h : IsRecoding d k) (j : Fin 50) :
    SignDigit.toInt (d.signs.get j) = SignedComb.sign (SignedComb.negative 50 k j) := by
  have hsign := h.signs j
  rw [SignDigit.toInt]
  cases hneg : SignedComb.negative 50 k j with
  | true =>
    rw [if_pos (hsign.mpr hneg)]
    rfl
  | false =>
    rw [if_neg fun hne => Bool.false_ne_true (hneg.symm.trans (hsign.mp hne))]
    rfl

/-- **The digits spell the scalar modulo the order.** -/
theorem recode_spells (k : Words4) :
    ∑ j : Fin 50, SignDigit.toInt ((recode k).signs.get j) * 2 ^ j.val
        + 2 ^ 50 * ∑ n : Fin 200, SignDigit.toInt ((recode k).signs.get (signIndex n))
          * (((recode k).bits.get n).val.toNat * 2 ^ n.val : Nat)
      ≡ Words.value k [ZMOD orderNat] := by
  obtain ⟨hodd, hlt, hmodEq⟩ := oddScalar_spec k
  have hdigits := isRecoding_recode k
  generalize Words.value (oddScalar k) = n at hodd hlt hmodEq hdigits
  have horder : 2 * orderNat ≤ 2 ^ 50 * 2 ^ 197 := by decide +kernel
  have hrest : n / 2 ^ 50 ≤ 2 ^ 197 := Nat.div_le_of_le_mul ((Nat.le_of_lt hlt).trans horder)
  have hsigns : ∑ j : Fin 50, SignDigit.toInt ((recode k).signs.get j) * 2 ^ j.val
      = ∑ j ∈ Finset.range 50, SignedComb.sign (SignedComb.negative 50 n j) * 2 ^ j := by
    rw [← Fin.sum_univ_eq_sum_range]
    exact Finset.sum_congr rfl fun j _ => by rw [hdigits.toInt_sign]
  -- the bits spell what is left of the scalar, and nothing is left behind them
  have hbits : ∑ i : Fin 200, SignDigit.toInt ((recode k).signs.get (signIndex i))
        * (((recode k).bits.get i).val.toNat * 2 ^ i.val : Nat)
      = (SignedComb.rest 50 n 0 : Int) := by
    have hsum := SignedComb.sum_bits 50 n 200
    rw [SignedComb.rest_eq_zero (d := 50) (w := 4) hrest (by decide), Nat.cast_zero, mul_zero,
      add_zero, ← Fin.sum_univ_eq_sum_range] at hsum
    rw [hsum]
    refine Finset.sum_congr rfl fun i _ => ?_
    have hindex : (signIndex i).val = i.val % 50 := by
      show 50 + i.val - (50 + i.val) / 50 * 50 = i.val % 50
      omega
    rw [hdigits.toInt_sign, hdigits.bits, hindex]
    push_cast
    ring
  rw [hsigns, hbits, ← SignedComb.sum_signs (by decide) hodd]
  exact Int.natCast_modEq_iff.mpr hmodEq

end ZkQuorum.Crypto.Stock
