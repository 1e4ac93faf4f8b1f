import Mathlib.Data.List.Basic
import Mathlib.Tactic.Ring

/-!
# Byte strings

Byte strings, fixed-width byte arrays and the little-endian codec between them
and the fixed-width integers.

- `Bytes` is a byte string of any length; `ByteVec n` carries its length, as
  `[u8; n]`, `uint8_t x[n]` and `bytesN` do.
- `LittleEndian.toNat` / `LittleEndian.ofNat` are the two directions of the
  codec over unbounded numbers; `ofNat w` keeps the low `w` bytes.
- the `UIntN` codecs are those two at the width of the type.
-/

/-- A byte string. -/
abbrev Bytes := List UInt8

/-- A byte array of `n` bytes. -/
abbrev ByteVec (n : Nat) := { b : Bytes // b.length = n }

namespace ByteVec

theorem length_val {n : Nat} (v : ByteVec n) : v.val.length = n := v.property

/-- The array of `n` zero bytes. -/
def zero (n : Nat) : ByteVec n := ⟨List.replicate n 0, List.length_replicate⟩

/-- The byte at index `i`. -/
def byte {n : Nat} (v : ByteVec n) (i : Fin n) : UInt8 := v.val.get (i.cast v.property.symm)

instance {n : Nat} : Inhabited (ByteVec n) := ⟨zero n⟩

end ByteVec

/-- The part between two others, at its offset. -/
theorem take_drop_middle {a b c : Bytes} {i n : Nat} (ha : a.length = i) (hb : b.length = n) :
    ((a ++ b ++ c).drop i).take n = b := by
  rw [List.append_assoc, List.drop_left' ha, List.take_left' hb]

/-- What follows a part of `n` bytes at offset `i`. -/
theorem drop_add_of_drop {s a b : Bytes} {i n : Nat} (h : s.drop i = a ++ b) (ha : a.length = n) :
    s.drop (i + n) = b := by
  rw [← List.drop_drop, h, List.drop_left' ha]

section Blocks

variable {α : Type} {f : α → Bytes} {k : Nat}

theorem length_flatMap_blocks {xs : List α} (hf : ∀ x ∈ xs, (f x).length = k) :
    (xs.flatMap f).length = xs.length * k := by
  induction xs with
  | nil => rw [List.flatMap_nil, List.length_nil, List.length_nil, Nat.zero_mul]
  | cons x xs ih =>
    rw [List.flatMap_cons, List.length_append, hf x List.mem_cons_self,
      ih fun y hy => hf y (List.mem_cons_of_mem x hy), List.length_cons, Nat.succ_mul, Nat.add_comm]

/-- The `i`-th of some blocks of `k` bytes written one after the other. -/
theorem take_drop_flatMap {xs : List α} (hf : ∀ x ∈ xs, (f x).length = k) {i : Nat}
    (h : i < xs.length) (rest : Bytes) :
    ((xs.flatMap f ++ rest).drop (i * k)).take k = f xs[i] := by
  have hsplit : xs = xs.take i ++ xs[i] :: xs.drop (i + 1) := by
    rw [List.getElem_cons_drop, List.take_append_drop]
  have hlen : ((xs.take i).flatMap f).length = i * k := by
    rw [length_flatMap_blocks fun x hx => hf x (List.mem_of_mem_take hx),
      List.length_take_of_le (Nat.le_of_lt h)]
  have hx := hf xs[i] (List.getElem_mem h)
  generalize xs[i] = x at hsplit hx ⊢
  rw [hsplit, List.flatMap_append, List.flatMap_cons, ← List.append_assoc,
    List.append_assoc _ _ rest]
  exact take_drop_middle hlen hx

/-- A string is its blocks of `k` bytes, one after the other. -/
theorem flatMap_take_drop (s : Bytes) (k n : Nat) :
    (List.range n).flatMap (fun i => (s.drop (i * k)).take k) = s.take (n * k) := by
  induction n with
  | zero => rw [List.range_zero, List.flatMap_nil, Nat.zero_mul, List.take_zero]
  | succ n ih =>
    rw [List.range_succ, List.flatMap_append, ih, List.flatMap_singleton, Nat.succ_mul,
      ← List.take_append_drop (n * k) (s.take (n * k + k)), List.take_take,
      Nat.min_eq_left (Nat.le_add_right _ _), List.drop_take, Nat.add_sub_cancel_left]

end Blocks

namespace LittleEndian

/-- The number a byte string spells, least significant byte first. -/
def toNat : Bytes → Nat
  | [] => 0
  | b :: bs => b.toNat + 256 * toNat bs

/-- The `w` least significant bytes of `v`, least significant byte first. -/
def ofNat : Nat → Nat → Bytes
  | 0, _ => []
  | w + 1, v => UInt8.ofNat v :: ofNat w (v / 256)

@[simp] theorem toNat_nil : toNat [] = 0 := rfl

@[simp] theorem toNat_cons (b : UInt8) (bs : Bytes) :
    toNat (b :: bs) = b.toNat + 256 * toNat bs := rfl

@[simp] theorem length_ofNat (w v : Nat) : (ofNat w v).length = w := by
  induction w generalizing v with
  | zero => rfl
  | succ w ih => simp [ofNat, ih]

theorem toNat_lt (bs : Bytes) : toNat bs < 256 ^ bs.length := by
  induction bs with
  | nil => simp
  | cons b bs ih =>
    have hb := b.toNat_lt
    rw [toNat_cons, List.length_cons, pow_succ]
    omega

/-- `toNat` of a string of `n` bytes is below `m` once `256 ^ n ≤ m`. -/
theorem toNat_lt_of_length {bs : Bytes} {n m : Nat} (h : bs.length = n)
    (hm : 256 ^ n ≤ m) : toNat bs < m :=
  Nat.lt_of_lt_of_le (toNat_lt bs) (h ▸ hm)

@[simp] theorem toNat_ofNat (w v : Nat) : toNat (ofNat w v) = v % 256 ^ w := by
  induction w generalizing v with
  | zero => simp [ofNat, Nat.mod_one]
  | succ w ih =>
    rw [ofNat, toNat_cons, ih, UInt8.toNat_ofNat', pow_succ 256 w, Nat.mul_comm (256 ^ w),
      Nat.mod_mul]

theorem toNat_ofNat_of_lt {w v : Nat} (h : v < 256 ^ w) : toNat (ofNat w v) = v := by
  rw [toNat_ofNat, Nat.mod_eq_of_lt h]

theorem ofNat_toNat {w : Nat} {bs : Bytes} (h : bs.length = w) : ofNat w (toNat bs) = bs := by
  subst h
  induction bs with
  | nil => rfl
  | cons b bs ih =>
    have hb := b.toNat_lt
    have hdiv : (b.toNat + 256 * toNat bs) / 256 = toNat bs := by omega
    have hmod : UInt8.ofNat (b.toNat + 256 * toNat bs) = b := by
      apply UInt8.toNat_inj.mp
      rw [UInt8.toNat_ofNat']
      omega
    rw [toNat_cons, List.length_cons, ofNat, hdiv, hmod, ih]

theorem toNat_append (bs cs : Bytes) :
    toNat (bs ++ cs) = toNat bs + 256 ^ bs.length * toNat cs := by
  induction bs with
  | nil => simp
  | cons b bs ih =>
    rw [List.cons_append, toNat_cons, ih, toNat_cons, List.length_cons, pow_succ]
    ring

/-! ## Fixed-width integers -/

/-- `u16::from_le_bytes`. -/
def toU16 (bs : Bytes) : UInt16 := UInt16.ofNat (toNat bs)

/-- `u32::from_le_bytes`. -/
def toU32 (bs : Bytes) : UInt32 := UInt32.ofNat (toNat bs)

/-- `u64::from_le_bytes`. -/
def toU64 (bs : Bytes) : UInt64 := UInt64.ofNat (toNat bs)

/-- `i64::from_le_bytes`. -/
def toI64 (bs : Bytes) : Int64 := (toU64 bs).toInt64

/-- `i64::to_le_bytes`. -/
def ofI64 (v : Int64) : Bytes := ofNat 8 v.toUInt64.toNat

/-- `u16::to_le_bytes`. -/
def ofU16 (v : UInt16) : Bytes := ofNat 2 v.toNat

/-- `u32::to_le_bytes`. -/
def ofU32 (v : UInt32) : Bytes := ofNat 4 v.toNat

/-- `u64::to_le_bytes`. -/
def ofU64 (v : UInt64) : Bytes := ofNat 8 v.toNat

@[simp] theorem length_ofU16 (v : UInt16) : (ofU16 v).length = 2 := length_ofNat ..

@[simp] theorem length_ofU32 (v : UInt32) : (ofU32 v).length = 4 := length_ofNat ..

@[simp] theorem length_ofU64 (v : UInt64) : (ofU64 v).length = 8 := length_ofNat ..

@[simp] theorem length_ofI64 (v : Int64) : (ofI64 v).length = 8 := length_ofNat ..

@[simp] theorem toU16_ofU16 (v : UInt16) : toU16 (ofU16 v) = v := by
  rw [toU16, ofU16, toNat_ofNat_of_lt (by simpa using v.toNat_lt), UInt16.ofNat_toNat]

@[simp] theorem toU32_ofU32 (v : UInt32) : toU32 (ofU32 v) = v := by
  rw [toU32, ofU32, toNat_ofNat_of_lt (by simpa using v.toNat_lt), UInt32.ofNat_toNat]

@[simp] theorem toU64_ofU64 (v : UInt64) : toU64 (ofU64 v) = v := by
  rw [toU64, ofU64, toNat_ofNat_of_lt (by simpa using v.toNat_lt), UInt64.ofNat_toNat]

@[simp] theorem toI64_ofI64 (v : Int64) : toI64 (ofI64 v) = v := by
  rw [toI64, toU64, ofI64, toNat_ofNat_of_lt (by simpa using v.toUInt64.toNat_lt),
    UInt64.ofNat_toNat, Int64.toInt64_toUInt64]

theorem toNat_toU16 {bs : Bytes} (h : bs.length = 2) : (toU16 bs).toNat = toNat bs := by
  rw [toU16, UInt16.toNat_ofNat', Nat.mod_eq_of_lt (toNat_lt_of_length h (by norm_num))]

theorem toNat_toU32 {bs : Bytes} (h : bs.length = 4) : (toU32 bs).toNat = toNat bs := by
  rw [toU32, UInt32.toNat_ofNat', Nat.mod_eq_of_lt (toNat_lt_of_length h (by norm_num))]

theorem toNat_toU64 {bs : Bytes} (h : bs.length = 8) : (toU64 bs).toNat = toNat bs := by
  rw [toU64, UInt64.toNat_ofNat', Nat.mod_eq_of_lt (toNat_lt_of_length h (by norm_num))]

theorem ofU16_toU16 {bs : Bytes} (h : bs.length = 2) : ofU16 (toU16 bs) = bs := by
  rw [ofU16, toNat_toU16 h, ofNat_toNat h]

theorem ofU32_toU32 {bs : Bytes} (h : bs.length = 4) : ofU32 (toU32 bs) = bs := by
  rw [ofU32, toNat_toU32 h, ofNat_toNat h]

theorem ofU64_toU64 {bs : Bytes} (h : bs.length = 8) : ofU64 (toU64 bs) = bs := by
  rw [ofU64, toNat_toU64 h, ofNat_toNat h]

/-- The 8 bytes of a `u64`, with their length. -/
def bytesOfU64 (v : UInt64) : ByteVec 8 := ⟨ofU64 v, length_ofU64 v⟩

theorem toNat_ofU64 (v : UInt64) : toNat (ofU64 v) = v.toNat :=
  toNat_ofNat_of_lt (by simpa using v.toNat_lt)

theorem ofU64_inj {v w : UInt64} : ofU64 v = ofU64 w ↔ v = w :=
  ⟨fun h => by rw [← toU64_ofU64 v, h, toU64_ofU64], fun h => h ▸ rfl⟩

/-- A byte before at most 7 others. -/
theorem toU64_cons {b : UInt8} {bs : Bytes} (h : bs.length ≤ 7) :
    toU64 (b :: bs) = b.toUInt64 ^^^ (toU64 bs <<< 8) := by
  have hlt : toNat bs < 256 ^ 7 :=
    Nat.lt_of_lt_of_le (toNat_lt bs) (Nat.pow_le_pow_right (by decide) h)
  have hb := b.toNat_lt
  have hbs : (toU64 bs).toNat = toNat bs := by
    rw [toU64, UInt64.toNat_ofNat', Nat.mod_eq_of_lt (by omega)]
  have hshift : toNat bs <<< 8 = 2 ^ 8 * toNat bs := by
    rw [Nat.shiftLeft_eq, Nat.mul_comm]
  apply UInt64.toNat_inj.mp
  rw [UInt64.toNat_xor, UInt64.toNat_shiftLeft, hbs, UInt8.toNat_toUInt64,
    show (8 : UInt64).toNat % 64 = 8 from rfl, hshift, Nat.mod_eq_of_lt (by omega), toU64,
    UInt64.toNat_ofNat', toNat_cons, Nat.mod_eq_of_lt (by omega)]
  -- the byte and the shifted word have no bit in common
  apply Nat.eq_of_testBit_eq
  intro i
  rw [Nat.testBit_xor, Nat.testBit_two_pow_mul, Nat.add_comm, Nat.testBit_two_pow_mul_add _ hb]
  by_cases hi : i < 8
  · simp [hi, show ¬ 8 ≤ i by omega]
  · have hhigh : b.toNat.testBit i = false :=
      Nat.testBit_lt_two_pow (Nat.lt_of_lt_of_le hb (Nat.pow_le_pow_right (by decide) (by omega)))
    simp [hi, hhigh, show 8 ≤ i by omega]

/-- A byte xored into one of at most 8. -/
theorem toU64_modify {bs : Bytes} {k : Nat} (b : UInt8) (hk : k < bs.length) (h : bs.length ≤ 8) :
    toU64 (bs.modify k (· ^^^ b)) = toU64 bs ^^^ (b.toUInt64 <<< UInt64.ofNat (8 * k)) := by
  induction bs generalizing k with
  | nil => exact absurd hk (Nat.not_lt_zero k)
  | cons c bs ih =>
    rw [List.length_cons] at hk h
    cases k with
    | zero =>
      rw [List.modify_zero_cons, toU64_cons (by omega), toU64_cons (by omega), UInt8.toUInt64_xor,
        UInt64.xor_assoc, UInt64.xor_comm b.toUInt64, ← UInt64.xor_assoc]
      exact congrArg _ UInt64.shiftLeft_zero.symm
    | succ k =>
      have hshift : b.toUInt64 <<< UInt64.ofNat (8 * k) <<< 8
          = b.toUInt64 <<< UInt64.ofNat (8 * (k + 1)) := by
        rw [← UInt64.shiftLeft_add_of_toNat_lt, Nat.mul_succ, UInt64.ofNat_add]
        · rfl
        · rw [UInt64.toNat_ofNat', Nat.mod_eq_of_lt (by omega)]
          show 8 * k + 8 < 64
          omega
      rw [List.modify_succ_cons, toU64_cons (by rw [List.length_modify]; omega),
        toU64_cons (by omega), ih (by omega) (by omega), UInt64.shiftLeft_xor, hshift,
        UInt64.xor_assoc]

/-! ## Shift-and-or decoding -/

/-- A byte shifted above a smaller number is added to it. -/
theorem or_shiftLeft_eq_add {q n : Nat} (h : q < 2 ^ n) (b : Nat) :
    q ||| (b <<< n) = q + 2 ^ n * b := by
  rw [Nat.shiftLeft_eq, Nat.mul_comm b, Nat.or_comm, ← Nat.two_pow_add_eq_or_of_lt h, Nat.add_comm]

/-- A shifted byte stays inside the word. -/
theorem shiftLeft_lt (b : UInt8) {n w : Nat} (h : n + 8 ≤ w) : b.toNat <<< n < 2 ^ w := by
  rw [Nat.shiftLeft_eq]
  calc b.toNat * 2 ^ n < 2 ^ 8 * 2 ^ n := Nat.mul_lt_mul_of_pos_right b.toNat_lt (Nat.two_pow_pos n)
    _ = 2 ^ (n + 8) := by rw [Nat.mul_comm, pow_add]
    _ ≤ 2 ^ w := Nat.pow_le_pow_right (by decide) h

/-- Two bytes shifted into place spell a `u16`. -/
theorem shiftOr16_eq (b0 b1 : UInt8) :
    b0.toUInt16 ||| (b1.toUInt16 <<< 8) = toU16 [b0, b1] := by
  have h0 := b0.toNat_lt
  apply UInt16.toNat_inj.mp
  rw [toNat_toU16 rfl, UInt16.toNat_or, UInt16.toNat_shiftLeft, UInt8.toNat_toUInt16,
    UInt8.toNat_toUInt16, show (8 : UInt16).toNat % 16 = 8 from rfl,
    Nat.mod_eq_of_lt (shiftLeft_lt b1 (by decide)), or_shiftLeft_eq_add h0]
  rfl

/-- Four bytes shifted into place spell a `u32`. -/
theorem shiftOr32_eq (b0 b1 b2 b3 : UInt8) :
    b0.toUInt32 ||| (b1.toUInt32 <<< 8) ||| (b2.toUInt32 <<< 16) ||| (b3.toUInt32 <<< 24)
      = toU32 [b0, b1, b2, b3] := by
  have hshift : ∀ (b : UInt8) (n : UInt32), n.toNat ≤ 24 →
      (b.toUInt32 <<< n).toNat = b.toNat <<< n.toNat := by
    intro b n hn
    rw [UInt32.toNat_shiftLeft, Nat.mod_eq_of_lt (show n.toNat < 32 by omega),
      UInt8.toNat_toUInt32, Nat.mod_eq_of_lt (shiftLeft_lt b (by omega))]
  have h0 := b0.toNat_lt
  have h1 := b1.toNat_lt
  have h2 := b2.toNat_lt
  apply UInt32.toNat_inj.mp
  rw [toNat_toU32 rfl, UInt32.toNat_or, UInt32.toNat_or, UInt32.toNat_or, hshift _ 8 (by decide),
    hshift _ 16 (by decide), hshift _ 24 (by decide), UInt8.toNat_toUInt32,
    show (8 : UInt32).toNat = 8 from rfl, show (16 : UInt32).toNat = 16 from rfl,
    show (24 : UInt32).toNat = 24 from rfl, @or_shiftLeft_eq_add _ 8 (by omega) _,
    @or_shiftLeft_eq_add _ 16 (by omega) _, @or_shiftLeft_eq_add _ 24 (by omega) _]
  simp only [toNat_cons, toNat_nil]
  omega

/-- Two halves shifted into place spell a `u64`. -/
theorem shiftOr64_eq {lo hi : Bytes} (hlo : lo.length = 4) (hhi : hi.length = 4) :
    (toU32 lo).toUInt64 ||| ((toU32 hi).toUInt64 <<< 32) = toU64 (lo ++ hi) := by
  have hlt := (toU32 lo).toNat_lt
  have hlt' := (toU32 hi).toNat_lt
  have hshift : (toU32 hi).toNat <<< 32 < 2 ^ 64 := by
    rw [Nat.shiftLeft_eq]
    omega
  apply UInt64.toNat_inj.mp
  rw [toNat_toU64 (by rw [List.length_append, hlo, hhi]), UInt64.toNat_or,
    UInt64.toNat_shiftLeft, UInt32.toNat_toUInt64, UInt32.toNat_toUInt64,
    show (32 : UInt64).toNat % 64 = 32 from rfl, Nat.mod_eq_of_lt hshift,
    or_shiftLeft_eq_add hlt, toNat_append, hlo, toNat_toU32 hlo, toNat_toU32 hhi]
  rfl

end LittleEndian
