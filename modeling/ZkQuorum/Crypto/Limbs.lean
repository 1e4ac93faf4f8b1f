import Mathlib.Tactic.Ring
import Mathlib.Tactic.NormNum

/-!
# 64-bit limbs (crypto/src/riscv_fourq_verify.c)

The portable primitives of the port: a 64 x 64 -> 128 bit product without a 128-bit
type, addition and subtraction with a carry, and the funnel shifts. Each has one
lemma that says what it computes over the natural numbers.

A carry is `unsigned char` in the source and only ever 0 or 1; it is a `Bool` here.
-/

namespace ZkQuorum.Crypto

/-- The low and the high word of a 128-bit number. -/
def wide (lo hi : UInt64) : Nat := lo.toNat + 2 ^ 64 * hi.toNat

/-- `umul128`: the low and the high word of the product. -/
def umul128 (a b : UInt64) : UInt64 × UInt64 :=
  let aLo := a.toUInt32.toUInt64
  let aHi := a >>> 32
  let bLo := b.toUInt32.toUInt64
  let bHi := b >>> 32
  let pLl := aLo * bLo
  let pLh := aLo * bHi
  let pHl := aHi * bLo
  let pHh := aHi * bHi
  let mid := (pLl >>> 32) + pLh.toUInt32.toUInt64 + pHl.toUInt32.toUInt64
  let lo := (pLl &&& (0xFFFFFFFF : UInt64)) ||| (mid <<< 32)
  let hi := pHh + (pLh >>> 32) + (pHl >>> 32) + (mid >>> 32)
  (lo, hi)

/-- `addcarry64`: the carry and the sum. -/
def addcarry64 (cin : Bool) (a b : UInt64) : Bool × UInt64 :=
  let t := a + cin.toUInt64
  let s := t + b
  (decide (t < a) || decide (s < t), s)

/-- `subborrow64`: the borrow and the difference. -/
def subborrow64 (bin : Bool) (a b : UInt64) : Bool × UInt64 :=
  let t := a - b
  let s := t - bin.toUInt64
  (decide (a < b) || decide (t < bin.toUInt64), s)

/-- `shiftright128`. -/
def shiftright128 (lo hi : UInt64) (n : Nat) : UInt64 :=
  if n = 0 then lo else (lo >>> UInt64.ofNat n) ||| (hi <<< UInt64.ofNat (64 - n))

/-- `shiftleft128`. -/
def shiftleft128 (lo hi : UInt64) (n : Nat) : UInt64 :=
  if n = 0 then hi else (hi <<< UInt64.ofNat n) ||| (lo >>> UInt64.ofNat (64 - n))

/-! ## Words as numbers -/

theorem toNat_and_mask (a : UInt64) {n : Nat} {m : UInt64}
    (hm : m.toNat = 2 ^ n - 1) : (a &&& m).toNat = a.toNat % 2 ^ n := by
  rw [UInt64.toNat_and, hm, Nat.and_two_pow_sub_one_eq_mod]

theorem toNat_low32 (a : UInt64) : a.toUInt32.toUInt64.toNat = a.toNat % 2 ^ 32 := by
  rw [UInt32.toNat_toUInt64, UInt64.toNat_toUInt32]

theorem toNat_shiftRight (a : UInt64) {n : Nat} (hn : n < 64) :
    (a >>> UInt64.ofNat n).toNat = a.toNat / 2 ^ n := by
  rw [UInt64.toNat_shiftRight, UInt64.toNat_ofNat', Nat.mod_eq_of_lt (show n < 2 ^ 64 by omega),
    Nat.mod_eq_of_lt hn, Nat.shiftRight_eq_div_pow]

theorem toNat_shiftLeft (a : UInt64) {n : Nat} (hn : n < 64) :
    (a <<< UInt64.ofNat n).toNat = a.toNat % 2 ^ (64 - n) * 2 ^ n := by
  have hpow : (2 : Nat) ^ 64 = 2 ^ (64 - n) * 2 ^ n := by
    rw [← pow_add, Nat.sub_add_cancel (Nat.le_of_lt hn)]
  rw [UInt64.toNat_shiftLeft, UInt64.toNat_ofNat', Nat.mod_eq_of_lt (show n < 2 ^ 64 by omega),
    Nat.mod_eq_of_lt hn, Nat.shiftLeft_eq, hpow, Nat.mul_mod_mul_right]

/-- A word over a word below it. -/
theorem toNat_or_of_lt {a b : UInt64} {n k : Nat} (ha : a.toNat < 2 ^ n)
    (hb : b.toNat = k * 2 ^ n) :
    (a ||| b).toNat = a.toNat + k * 2 ^ n := by
  rw [UInt64.toNat_or, hb, Nat.or_comm, Nat.mul_comm k, ← Nat.two_pow_add_eq_or_of_lt ha,
    Nat.add_comm]

theorem toNat_toUInt64 (b : Bool) : b.toUInt64.toNat = b.toNat := by
  cases b <;> rfl

/-- The product of two half words fits in a word, with room for two half words more. -/
theorem toNat_mul_of_half {u v : UInt64} (hu : u.toNat < 2 ^ 32) (hv : v.toNat < 2 ^ 32) :
    (u * v).toNat = u.toNat * v.toNat ∧ (u * v).toNat ≤ (2 ^ 32 - 1) * (2 ^ 32 - 1) := by
  have hbound : u.toNat * v.toNat ≤ (2 ^ 32 - 1) * (2 ^ 32 - 1) :=
    Nat.mul_le_mul (Nat.le_sub_one_of_lt hu) (Nat.le_sub_one_of_lt hv)
  have heq : (u * v).toNat = u.toNat * v.toNat := by
    rw [UInt64.toNat_mul, Nat.mod_eq_of_lt (by omega)]
  exact ⟨heq, heq ▸ hbound⟩

/-- The four partial products, added column by column. -/
theorem wide_of_parts {pLl pLh pHl pHh : UInt64}
    (hll : pLl.toNat ≤ (2 ^ 32 - 1) * (2 ^ 32 - 1)) (hlh : pLh.toNat ≤ (2 ^ 32 - 1) * (2 ^ 32 - 1))
    (hhl : pHl.toNat ≤ (2 ^ 32 - 1) * (2 ^ 32 - 1))
    (hhh : pHh.toNat ≤ (2 ^ 32 - 1) * (2 ^ 32 - 1)) :
    let mid := (pLl >>> 32) + pLh.toUInt32.toUInt64 + pHl.toUInt32.toUInt64
    wide ((pLl &&& (0xFFFFFFFF : UInt64)) ||| (mid <<< 32))
        (pHh + (pLh >>> 32) + (pHl >>> 32) + (mid >>> 32))
      = pLl.toNat + 2 ^ 32 * (pLh.toNat + pHl.toNat) + 2 ^ 64 * pHh.toNat := by
  intro mid
  have hshift : ∀ v : UInt64, (v >>> 32).toNat = v.toNat / 2 ^ 32 :=
    fun v => toNat_shiftRight v (show 32 < 64 by decide)
  -- the middle column does not overflow
  have hmid : mid.toNat
      = pLl.toNat / 2 ^ 32 + pLh.toNat % 2 ^ 32 + pHl.toNat % 2 ^ 32 := by
    rw [UInt64.toNat_add, UInt64.toNat_add, hshift, toNat_low32, toNat_low32]
    omega
  have hlow : (pLl &&& (0xFFFFFFFF : UInt64)).toNat = pLl.toNat % 2 ^ 32 :=
    toNat_and_mask (n := 32) pLl rfl
  have hhigh : (mid <<< 32).toNat = mid.toNat % 2 ^ 32 * 2 ^ 32 :=
    toNat_shiftLeft mid (show 32 < 64 by decide)
  have hlo : ((pLl &&& (0xFFFFFFFF : UInt64)) ||| (mid <<< 32)).toNat
      = pLl.toNat % 2 ^ 32 + mid.toNat % 2 ^ 32 * 2 ^ 32 := by
    rw [toNat_or_of_lt (n := 32) (by rw [hlow]; omega) hhigh, hlow]
  -- nor does the high word
  have hhi : (pHh + (pLh >>> 32) + (pHl >>> 32) + (mid >>> 32)).toNat
      = pHh.toNat + pLh.toNat / 2 ^ 32 + pHl.toNat / 2 ^ 32 + mid.toNat / 2 ^ 32 := by
    rw [UInt64.toNat_add, UInt64.toNat_add, UInt64.toNat_add, hshift, hshift, hshift]
    omega
  rw [wide, hlo, hhi, hmid]
  omega

/-- **The product is exact.** -/
theorem umul128_eq (a b : UInt64) :
    wide (umul128 a b).1 (umul128 a b).2 = a.toNat * b.toNat := by
  have ha := a.toNat_lt
  have hb := b.toNat_lt
  have haLo : a.toUInt32.toUInt64.toNat = a.toNat % 2 ^ 32 := toNat_low32 a
  have hbLo : b.toUInt32.toUInt64.toNat = b.toNat % 2 ^ 32 := toNat_low32 b
  have haHi : (a >>> 32).toNat = a.toNat / 2 ^ 32 := toNat_shiftRight a (show 32 < 64 by decide)
  have hbHi : (b >>> 32).toNat = b.toNat / 2 ^ 32 := toNat_shiftRight b (show 32 < 64 by decide)
  obtain ⟨hll, hll'⟩ := toNat_mul_of_half (u := a.toUInt32.toUInt64) (v := b.toUInt32.toUInt64)
    (by omega) (by omega)
  obtain ⟨hlh, hlh'⟩ := toNat_mul_of_half (u := a.toUInt32.toUInt64) (v := b >>> 32)
    (by omega) (by omega)
  obtain ⟨hhl, hhl'⟩ := toNat_mul_of_half (u := a >>> 32) (v := b.toUInt32.toUInt64)
    (by omega) (by omega)
  obtain ⟨hhh, hhh'⟩ := toNat_mul_of_half (u := a >>> 32) (v := b >>> 32) (by omega) (by omega)
  calc wide (umul128 a b).1 (umul128 a b).2
      = _ := wide_of_parts hll' hlh' hhl' hhh'
    _ = (a.toNat % 2 ^ 32 + 2 ^ 32 * (a.toNat / 2 ^ 32))
          * (b.toNat % 2 ^ 32 + 2 ^ 32 * (b.toNat / 2 ^ 32)) := by
      rw [hll, hlh, hhl, hhh, haLo, hbLo, haHi, hbHi]
      ring
    _ = a.toNat * b.toNat := by rw [Nat.mod_add_div, Nat.mod_add_div]

/-- **The sum is exact.** -/
theorem addcarry64_eq (cin : Bool) (a b : UInt64) :
    (addcarry64 cin a b).2.toNat + 2 ^ 64 * (addcarry64 cin a b).1.toNat
      = a.toNat + b.toNat + cin.toNat := by
  have ha := a.toNat_lt
  have hb := b.toNat_lt
  have hc := cin.toNat_le
  have ht : (a + cin.toUInt64).toNat = (a.toNat + cin.toNat) % 2 ^ 64 := by
    rw [UInt64.toNat_add, toNat_toUInt64]
  have hs : (a + cin.toUInt64 + b).toNat = ((a.toNat + cin.toNat) % 2 ^ 64 + b.toNat) % 2 ^ 64 := by
    rw [UInt64.toNat_add, ht]
  simp only [addcarry64, hs, UInt64.lt_iff_toNat_lt, ht]
  by_cases h1 : (a.toNat + cin.toNat) % 2 ^ 64 < a.toNat
  · rw [decide_eq_true h1, Bool.true_or, Bool.toNat_true]
    omega
  · rw [decide_eq_false h1, Bool.false_or]
    by_cases h2 : ((a.toNat + cin.toNat) % 2 ^ 64 + b.toNat) % 2 ^ 64
        < (a.toNat + cin.toNat) % 2 ^ 64
    · rw [decide_eq_true h2, Bool.toNat_true]
      omega
    · rw [decide_eq_false h2, Bool.toNat_false]
      omega

/-- **The difference is exact.** -/
theorem subborrow64_eq (bin : Bool) (a b : UInt64) :
    (subborrow64 bin a b).2.toNat + b.toNat + bin.toNat
      = a.toNat + 2 ^ 64 * (subborrow64 bin a b).1.toNat := by
  have ha := a.toNat_lt
  have hb := b.toNat_lt
  have hc := bin.toNat_le
  have ht : (a - b).toNat = (2 ^ 64 - b.toNat + a.toNat) % 2 ^ 64 := UInt64.toNat_sub a b
  have hs : (a - b - bin.toUInt64).toNat
      = (2 ^ 64 - bin.toNat + (2 ^ 64 - b.toNat + a.toNat) % 2 ^ 64) % 2 ^ 64 := by
    rw [UInt64.toNat_sub, toNat_toUInt64, ht]
  simp only [subborrow64, hs, UInt64.lt_iff_toNat_lt, ht, toNat_toUInt64]
  by_cases h1 : a.toNat < b.toNat
  · rw [decide_eq_true h1, Bool.true_or, Bool.toNat_true]
    omega
  · rw [decide_eq_false h1, Bool.false_or]
    by_cases h2 : (2 ^ 64 - b.toNat + a.toNat) % 2 ^ 64 < bin.toNat
    · rw [decide_eq_true h2, Bool.toNat_true]
      omega
    · rw [decide_eq_false h2, Bool.toNat_false]
      omega

/-- The high word of a 128-bit number shifted to the left. -/
theorem shiftleft128_eq (lo hi : UInt64) {n : Nat} (h0 : 0 < n) (hn : n < 64) :
    (shiftleft128 lo hi n).toNat
      = hi.toNat % 2 ^ (64 - n) * 2 ^ n + lo.toNat / 2 ^ (64 - n) := by
  have hlo : (lo >>> UInt64.ofNat (64 - n)).toNat = lo.toNat / 2 ^ (64 - n) :=
    toNat_shiftRight lo (by omega)
  have hlt : lo.toNat / 2 ^ (64 - n) < 2 ^ n := by
    rw [Nat.div_lt_iff_lt_mul (Nat.two_pow_pos _), ← pow_add, show n + (64 - n) = 64 by omega]
    exact lo.toNat_lt
  rw [shiftleft128, if_neg (by omega), UInt64.or_comm,
    toNat_or_of_lt (by rw [hlo]; exact hlt) (toNat_shiftLeft hi hn), hlo, Nat.add_comm]

/-- The low word of a 128-bit number shifted to the right. -/
theorem shiftright128_eq (lo hi : UInt64) {n : Nat} (h0 : 0 < n) (hn : n < 64) :
    (shiftright128 lo hi n).toNat = lo.toNat / 2 ^ n + hi.toNat % 2 ^ n * 2 ^ (64 - n) := by
  have hlo : (lo >>> UInt64.ofNat n).toNat = lo.toNat / 2 ^ n := toNat_shiftRight lo hn
  have hlt : lo.toNat / 2 ^ n < 2 ^ (64 - n) := by
    rw [Nat.div_lt_iff_lt_mul (Nat.two_pow_pos _), ← pow_add, show 64 - n + n = 64 by omega]
    exact lo.toNat_lt
  have hhi := toNat_shiftLeft hi (show 64 - n < 64 by omega)
  rw [show 64 - (64 - n) = n by omega] at hhi
  rw [shiftright128, if_neg (by omega), toNat_or_of_lt (by rw [hlo]; exact hlt) hhi, hlo]

end ZkQuorum.Crypto
