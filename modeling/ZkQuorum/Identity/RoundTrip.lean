import ZkQuorum.Identity.Codec

/-!
# Identities are a canonical encoding

`identity_to_pubkey` accepts the image of `pubkey_to_identity` and nothing else,
for any checksum function and although a group of 14 letters can denote a number
above `2 ^ 64`: what is decoded is encoded again and compared.
-/

namespace ZkQuorum.Identity

open LittleEndian

/-- The number a group of letters denotes, before it is cut to 64 bits. -/
def value : Bytes → Nat
  | [] => 0
  | c :: cs => (c - 65).toNat + 26 * value cs

/-! ## Letters -/

@[simp] theorem length_pushLetters (n v : Nat) : (pushLetters n v).length = n := by
  induction n generalizing v with
  | zero => rfl
  | succ n ih => rw [pushLetters, List.length_cons, ih]

/-- A pushed letter stands for the digit it was made from. -/
theorem letter_digit {d : Nat} (h : d < 26) :
    (65 + UInt8.ofNat d).toNat = 65 + d ∧ (65 + UInt8.ofNat d - 65).toNat = d := by
  have hd : (UInt8.ofNat d).toNat = d := by
    rw [UInt8.toNat_ofNat', Nat.mod_eq_of_lt (by omega)]
  have hsum : (65 + UInt8.ofNat d).toNat = 65 + d := by
    rw [UInt8.toNat_add, hd]
    show (65 + d) % 256 = 65 + d
    omega
  refine ⟨hsum, ?_⟩
  rw [UInt8.add_comm, UInt8.add_sub_cancel, hd]

theorem pushLetters_uppercase (n v : Nat) : (pushLetters n v).all isAsciiUppercase = true := by
  induction n generalizing v with
  | zero => rfl
  | succ n ih =>
    have hdigit := (letter_digit (Nat.mod_lt v (by decide : 0 < 26))).1
    have hmod : v % 26 < 26 := Nat.mod_lt v (by decide)
    rw [pushLetters, List.all_cons, ih, Bool.and_true]
    unfold isAsciiUppercase
    simp only [UInt8.le_iff_toNat_le, hdigit, Bool.and_eq_true, decide_eq_true_eq]
    constructor
    · show 65 ≤ 65 + v % 26
      omega
    · show 65 + v % 26 ≤ 90
      omega

/-- `n` letters denote a number modulo `26 ^ n`. -/
theorem value_pushLetters (n v : Nat) : value (pushLetters n v) = v % 26 ^ n := by
  induction n generalizing v with
  | zero => rw [pow_zero, Nat.mod_one]; rfl
  | succ n ih =>
    rw [pushLetters, value, (letter_digit (Nat.mod_lt v (by decide))).2, ih, pow_succ',
      Nat.mod_mul]

/-- The decoding loop computes the value modulo `2 ^ 64`. -/
theorem decodeGroup_eq (group : Bytes) : decodeGroup group = UInt64.ofNat (value group) := by
  rw [decodeGroup, List.foldl_reverse]
  induction group with
  | nil => rfl
  | cons c cs ih =>
    rw [List.foldr_cons, ih, value, UInt64.ofNat_add, UInt64.ofNat_mul, UInt64.mul_comm,
      UInt64.add_comm, UInt64.ofNat_uInt8ToNat]
    rfl

/-! ## Keys -/

/-- The four groups of an identity. -/
theorem group_pubkeyToIdentity (k12 : Bytes → ByteVec 3) (pk : ByteVec 32) {i : Nat} (h : i < 4) :
    ((pubkeyToIdentity k12 pk).drop (i * 14)).take 14 = pushLetters 14 (limb pk i).toNat := by
  have hlen : i < (List.range 4).length := by
    rw [List.length_range]
    exact h
  have hblock : ((pubkeyToIdentity k12 pk).drop (i * 14)).take 14
      = pushLetters 14 (limb pk (List.range 4)[i]).toNat :=
    take_drop_flatMap (fun _ _ => length_pushLetters 14 _) hlen _
  rw [List.getElem_range] at hblock
  exact hblock

theorem length_pubkeyToIdentity (k12 : Bytes → ByteVec 3) (pk : ByteVec 32) :
    (pubkeyToIdentity k12 pk).length = 60 := by
  rw [pubkeyToIdentity, List.length_append, length_pushLetters,
    length_flatMap_blocks fun i _ => length_pushLetters 14 _, List.length_range]

theorem pubkeyToIdentity_uppercase (k12 : Bytes → ByteVec 3) (pk : ByteVec 32) :
    (pubkeyToIdentity k12 pk).all isAsciiUppercase = true := by
  rw [pubkeyToIdentity, List.all_append, pushLetters_uppercase, Bool.and_true, List.all_flatMap,
    List.all_eq_true]
  exact fun i _ => pushLetters_uppercase 14 _

/-- A limb has 14 base-26 digits: its group denotes it, below `2 ^ 64`. -/
theorem value_group (k12 : Bytes → ByteVec 3) (pk : ByteVec 32) {i : Nat} (h : i < 4) :
    value (((pubkeyToIdentity k12 pk).drop (i * 14)).take 14) = (limb pk i).toNat := by
  have hlt := (limb pk i).toNat_lt
  rw [group_pubkeyToIdentity k12 pk h, value_pushLetters, Nat.mod_eq_of_lt (by omega)]

/-- The decoder depends on the first 56 letters only. -/
theorem decodeKey_congr {b b' : Bytes} (h : b.take 56 = b'.take 56) :
    decodeKey b = decodeKey b' := by
  have hgroup : ∀ i ∈ List.range 4, (b.drop (i * 14)).take 14 = (b'.drop (i * 14)).take 14 := by
    intro i hi
    have hi' := List.mem_range.mp hi
    have hcut : ∀ s : Bytes, (s.drop (i * 14)).take 14 = ((s.take 56).drop (i * 14)).take 14 := by
      intro s
      rw [List.drop_take, List.take_take, Nat.min_eq_left (by omega)]
    rw [hcut b, hcut b', h]
  apply Subtype.ext
  show (List.range 4).flatMap (fun i => ofU64 (decodeGroup ((b.drop (i * 14)).take 14)))
    = (List.range 4).flatMap (fun i => ofU64 (decodeGroup ((b'.drop (i * 14)).take 14)))
  exact List.flatMap_congr fun i hi => by rw [hgroup i hi]

/-- **The decoder inverts the encoder.** -/
theorem decodeKey_pubkeyToIdentity (k12 : Bytes → ByteVec 3) (pk : ByteVec 32) :
    decodeKey (pubkeyToIdentity k12 pk) = pk := by
  apply Subtype.ext
  have hlimb : ∀ i ∈ List.range 4,
      ofU64 (decodeGroup (((pubkeyToIdentity k12 pk).drop (i * 14)).take 14))
        = (pk.val.drop (i * 8)).take 8 := by
    intro i hi
    have hi' := List.mem_range.mp hi
    rw [decodeGroup_eq, value_group k12 pk hi', UInt64.ofNat_toNat, limb, ofU64_toU64]
    rw [List.length_take, List.length_drop, pk.property]
    omega
  calc (decodeKey (pubkeyToIdentity k12 pk)).val
      = (List.range 4).flatMap fun i => (pk.val.drop (i * 8)).take 8 := List.flatMap_congr hlimb
    _ = pk.val := by
      rw [flatMap_take_drop, List.take_of_length_le (Nat.le_of_eq pk.property)]

/-- **Exactness**: a string is accepted iff it is the identity of the key it decodes
to. -/
theorem identityToPubkey_eq_ok {k12 : Bytes → ByteVec 3} {id : Bytes} {pk : ByteVec 32} :
    identityToPubkey k12 id = .ok pk ↔ id = pubkeyToIdentity k12 pk := by
  constructor
  · intro h
    unfold identityToPubkey at h
    split at h
    · cases h
    · simp only at h
      split at h
      · cases h
      · rename_i heq
        cases h
        exact (not_not.mp heq).symm
  · rintro rfl
    have hform : ¬ ((pubkeyToIdentity k12 pk).length ≠ 60
        ∨ ¬ (pubkeyToIdentity k12 pk).all isAsciiUppercase) := by
      rintro (hlen | hupper)
      · exact hlen (length_pubkeyToIdentity k12 pk)
      · exact hupper (pubkeyToIdentity_uppercase k12 pk)
    rw [identityToPubkey, if_neg hform]
    simp only [decodeKey_pubkeyToIdentity]
    rw [if_neg (not_not.mpr rfl)]

/-! ## Hex -/

/-- The guest reads back the two digits of a byte. -/
theorem nib_hexDigit : ∀ n : Fin 16, Guest.nib (hexDigit n) = .ok (UInt8.ofNat n) := by
  decide +kernel

theorem hi_or_lo : ∀ n : Fin 256,
    (UInt8.ofNat (n / 16) <<< 4) ||| UInt8.ofNat (n % 16) = UInt8.ofNat n := by
  decide +kernel

theorem hexLoop_digits (bs : Bytes) :
    Guest.hexLoop (bs.flatMap fun b => [hexDigit (b.toNat / 16), hexDigit (b.toNat % 16)])
      = .ok bs := by
  induction bs with
  | nil => rfl
  | cons b bs ih =>
    have hb := b.toNat_lt
    have hhi := nib_hexDigit ⟨b.toNat / 16, by omega⟩
    have hlo := nib_hexDigit ⟨b.toNat % 16, by omega⟩
    have hor := hi_or_lo ⟨b.toNat, hb⟩
    simp only [UInt8.ofNat_toNat] at hor
    rw [List.flatMap_cons, List.cons_append, List.cons_append, List.nil_append, Guest.hexLoop, hhi,
      hlo, ih]
    show Except.ok (_ :: bs) = _
    rw [hor]

/-- **The guest's `hex32` reads what the build script's writes.** -/
theorem hex32_hex32 (pk : ByteVec 32) : Guest.hex32 (hex32 pk) = .ok pk := by
  have hlen : (hex32 pk).length = 64 := by
    rw [hex32, length_flatMap_blocks (k := 2) fun b _ => rfl, pk.property]
  rw [Guest.hex32, hlen, beq_self_eq_true, Rust.assert_true, Rust.ok_bind, hex32, hexLoop_digits,
    Rust.ok_bind, Rust.toArray_val]

/-! ## The codec -/

/-- **Identity codec and baking pipeline**, for any checksum function:

- keys survive the trip through an identity and through hex;
- what is accepted is the identity of the key it decodes to, and every other string
  gives an error;
- among these are the strings with a group that denotes `2 ^ 64` or more, and the
  strings that differ from an identity in the checksum letters only. -/
theorem identity_codec (k12 : Bytes → ByteVec 3) :
    (∀ pk, identityToPubkey k12 (pubkeyToIdentity k12 pk) = .ok pk) ∧
    (∀ pk, Guest.hex32 (hex32 pk) = .ok pk) ∧
    (∀ id pk, identityToPubkey k12 id = .ok pk → id = pubkeyToIdentity k12 pk) ∧
    (∀ id, (∀ pk, id ≠ pubkeyToIdentity k12 pk) → ∃ e, identityToPubkey k12 id = .error e) ∧
    (∀ id i, i < 4 → 2 ^ 64 ≤ value ((id.drop (i * 14)).take 14) →
      ∃ e, identityToPubkey k12 id = .error e) ∧
    (∀ id pk, id.take 56 = (pubkeyToIdentity k12 pk).take 56 → id ≠ pubkeyToIdentity k12 pk →
      ∃ e, identityToPubkey k12 id = .error e) := by
  have hreject : ∀ id, (∀ pk, id ≠ pubkeyToIdentity k12 pk) →
      ∃ e, identityToPubkey k12 id = .error e := by
    intro id hno
    cases h : identityToPubkey k12 id with
    | error e => exact ⟨e, rfl⟩
    | ok pk => exact absurd (identityToPubkey_eq_ok.mp h) (hno pk)
  refine ⟨fun pk => identityToPubkey_eq_ok.mpr rfl, hex32_hex32,
    fun id pk => identityToPubkey_eq_ok.mp, hreject, fun id i hi hvalue => hreject id ?_,
    fun id pk htake hne => hreject id ?_⟩
  · rintro pk rfl
    rw [value_group k12 pk hi] at hvalue
    have := (limb pk i).toNat_lt
    omega
  · rintro pk' rfl
    have hkey := decodeKey_congr htake
    rw [decodeKey_pubkeyToIdentity, decodeKey_pubkeyToIdentity] at hkey
    exact hne (congrArg _ hkey)

end ZkQuorum.Identity
