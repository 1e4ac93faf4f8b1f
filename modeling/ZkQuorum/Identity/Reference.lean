import ZkQuorum.Identity.RoundTrip

/-!
# Identities in the reference (crypto/src/stock_qubic.c, stock_host.cpp)

`getIdentity` behind `qubic_identity`, and `getPublicKeyFromIdentity`. identity.rs says that it
mirrors the first; the second does not look at the checksum.

- `qubicIdentity_eq`: the identities of the reference are those of identity.rs, whatever is in
  the byte of the checksum that no hash is written to;
- `getPublicKeyFromIdentity_eq`: the reference decodes every string whose first 56 letters are
  upper case;
- **`identity_reference`**: `identity_to_pubkey` accepts the strings which the reference decodes
  and spells again.
-/

namespace ZkQuorum.Identity

open LittleEndian

/-! ## Encoding -/

/-- The loop of `getIdentity`: `n` letters, least significant digit first. -/
def fragmentLetters (letterA : Nat) : Nat → Nat → List UInt16
  | 0, _ => []
  | n + 1, fragment => .ofNat (fragment % 26 + letterA) :: fragmentLetters letterA n (fragment / 26)

/-- `getIdentity`. The hash leaves the last byte of the checksum as it is. -/
def getIdentity (k12 : Bytes → ByteVec 3) (lastByte : UInt8) (publicKey : ByteVec 32)
    (isLowerCase : Bool) : List UInt16 :=
  let letterA := if isLowerCase then 97 else 65
  let identityBytesChecksum := toU32 ((k12 publicKey.val).val ++ [lastByte]) &&& 0x3FFFF
  (List.range 4).flatMap (fun i => fragmentLetters letterA 14 (limb publicKey i).toNat)
    ++ fragmentLetters letterA 4 identityBytesChecksum.toNat ++ [0]

/-- `qubic_identity`: the characters of `getIdentity` as bytes. -/
def qubicIdentity (k12 : Bytes → ByteVec 3) (lastByte : UInt8) (pub : ByteVec 32)
    (lowerCase : Bool) : Bytes :=
  (getIdentity k12 lastByte pub lowerCase).map fun c => .ofNat c.toNat

section Encoding

variable (k12 : Bytes → ByteVec 3) (lastByte : UInt8)

theorem map_fragmentLetters (letterA n : Nat) : ∀ v : Nat,
    (fragmentLetters letterA n v).map (fun c => UInt8.ofNat c.toNat)
      = (pushLetters n v).map fun c => c - 65 + .ofNat letterA := by
  induction n with
  | zero => exact fun v => rfl
  | succ n ih =>
    intro v
    have hdigit : v % 26 < 26 := Nat.mod_lt v (by decide)
    rw [fragmentLetters, pushLetters, List.map_cons, List.map_cons, ih]
    congr 1
    apply UInt8.toNat_inj.mp
    rw [UInt8.toNat_ofNat', UInt16.toNat_ofNat', UInt8.toNat_add, (letter_digit hdigit).2,
      UInt8.toNat_ofNat']
    omega

/-- The bits of the checksum that are kept are those of the hash. -/
theorem checksum_lastByte (pk : ByteVec 32) :
    toU32 ((k12 pk.val).val ++ [lastByte]) &&& 0x3FFFF = checksum k12 pk := by
  have hlen : (k12 pk.val).val.length = 3 := (k12 pk.val).property
  have hvalue : ∀ b : UInt8, (toU32 ((k12 pk.val).val ++ [b]) &&& 0x3FFFF).toNat
      = toNat (k12 pk.val).val % 2 ^ 18 := by
    intro b
    have hlt := toNat_lt (k12 pk.val).val
    rw [UInt32.toNat_and, show (0x3FFFF : UInt32).toNat = 2 ^ 18 - 1 from rfl,
      Nat.and_two_pow_sub_one_eq_mod, toU32, UInt32.toNat_ofNat', toNat_append, hlen]
    rw [hlen] at hlt
    omega
  apply UInt32.toNat_inj.mp
  rw [hvalue lastByte, checksum, hvalue 0]

/-- **The identities of the reference are those of identity.rs.** -/
theorem qubicIdentity_eq (pk : ByteVec 32) :
    qubicIdentity k12 lastByte pk false = pubkeyToIdentity k12 pk ++ [0] := by
  have hletters : ∀ n v, (fragmentLetters 65 n v).map (fun c => UInt8.ofNat c.toNat)
      = pushLetters n v := by
    intro n v
    rw [map_fragmentLetters]
    refine (List.map_congr_left fun c _ => ?_).trans (List.map_id _)
    exact UInt8.sub_add_cancel c 65
  rw [qubicIdentity, getIdentity, if_neg Bool.false_ne_true]
  rw [List.map_append, List.map_append, hletters, checksum_lastByte, List.map_flatMap]
  simp only [hletters]
  rfl

/-- An identity in lower case begins with a letter that is not upper case. -/
theorem qubicIdentity_lower (pk : ByteVec 32) : ∃ c rest,
    qubicIdentity k12 lastByte pk true = c :: rest ∧ isAsciiUppercase c = false := by
  refine ⟨_, _, rfl, ?_⟩
  have hdigit : (limb pk 0).toNat % 26 < 26 := Nat.mod_lt _ (by decide)
  rw [isAsciiUppercase, Bool.and_eq_false_iff]
  refine .inr (decide_eq_false ?_)
  rw [UInt8.le_iff_toNat_le, UInt8.toNat_ofNat', UInt16.toNat_ofNat']
  show ¬ ((limb pk 0).toNat % 26 + 97) % 2 ^ 16 % 2 ^ 8 ≤ 90
  omega

end Encoding

/-! ## Decoding -/

/-- The inner loop of `getPublicKeyFromIdentity`, over the letters of a group from the last one
on: none is `false`. -/
def decodeLetters : Bytes → UInt64 → Option UInt64
  | [], fragment => some fragment
  | c :: rest, fragment =>
    if c < 65 ∨ c > 90 then none else decodeLetters rest (fragment * 26 + (c - 65).toUInt64)

/-- The words of the key, one group after the other. -/
def decodeGroups (identity : Bytes) : List Nat → Option Bytes
  | [] => some []
  | i :: rest => do
    let fragment ← decodeLetters ((identity.drop (i * 14)).take 14).reverse 0
    let key ← decodeGroups identity rest
    return ofU64 fragment ++ key

/-- `getPublicKeyFromIdentity`: the key in the output, or none where it is `false`. -/
def getPublicKeyFromIdentity (identity : ByteVec 60) : Option Bytes :=
  decodeGroups identity.val [0, 1, 2, 3]

section Decoding

theorem decodeLetters_eq (letters : Bytes) : ∀ fragment : UInt64,
    decodeLetters letters fragment = if letters.all isAsciiUppercase then
      some (letters.foldl (fun frag c => frag * 26 + (c - 65).toUInt64) fragment) else none := by
  induction letters with
  | nil => exact fun fragment => rfl
  | cons c rest ih =>
    intro fragment
    have hupper : isAsciiUppercase c = true ↔ ¬ (c < 65 ∨ c > 90) := by
      rw [isAsciiUppercase, Bool.and_eq_true, decide_eq_true_eq, decide_eq_true_eq, not_or,
        gt_iff_lt, UInt8.not_lt, UInt8.not_lt]
    rw [decodeLetters, List.all_cons, List.foldl_cons]
    by_cases hc : c < 65 ∨ c > 90
    · have hfalse : isAsciiUppercase c = false := by
        rw [← Bool.not_eq_true, hupper]
        exact not_not.mpr hc
      rw [if_pos hc, hfalse, Bool.false_and, if_neg Bool.false_ne_true]
    · rw [if_neg hc, hupper.mpr hc, Bool.true_and, ih]

theorem decodeGroups_eq (identity : Bytes) (groups : List Nat) :
    decodeGroups identity groups
      = if groups.all fun i => ((identity.drop (i * 14)).take 14).all isAsciiUppercase then
          some (groups.flatMap fun i => ofU64 (decodeGroup ((identity.drop (i * 14)).take 14)))
        else none := by
  induction groups with
  | nil => rfl
  | cons i rest ih =>
    rw [decodeGroups, decodeLetters_eq, List.all_reverse, ih, List.all_cons, List.flatMap_cons]
    cases hi : ((identity.drop (i * 14)).take 14).all isAsciiUppercase with
    | false => rfl
    | true =>
      rw [if_pos rfl, Bool.true_and]
      cases hrest : rest.all fun i => ((identity.drop (i * 14)).take 14).all isAsciiUppercase with
      | false => rfl
      | true => rfl

/-- **The reference decodes a string just when its first 56 letters are upper case.** -/
theorem getPublicKeyFromIdentity_eq (identity : ByteVec 60) :
    getPublicKeyFromIdentity identity
      = if (identity.val.take 56).all isAsciiUppercase then some (decodeKey identity.val).val
        else none := by
  have hsplit : identity.val.take 56
      = [0, 1, 2, 3].flatMap fun i => (identity.val.drop (i * 14)).take 14 := by
    exact (flatMap_take_drop identity.val 14 4).symm
  rw [getPublicKeyFromIdentity, decodeGroups_eq, hsplit, List.all_flatMap]
  rfl

end Decoding

/-! ## Both -/

/-- **identity.rs against the reference**, with one hash: it has the same identities, whatever the
last byte of the checksum was; it accepts the strings which the reference decodes to a key and
spells again; and an identity in lower case is accepted by neither. -/
theorem identity_reference (k12 : Bytes → ByteVec 3) (lastByte : UInt8) :
    (∀ pk, qubicIdentity k12 lastByte pk false = pubkeyToIdentity k12 pk ++ [0]) ∧
    (∀ (id : ByteVec 60) pk, identityToPubkey k12 id.val = .ok pk ↔
      getPublicKeyFromIdentity id = some pk.val ∧
        qubicIdentity k12 lastByte pk false = id.val ++ [0]) ∧
    (∀ (id : ByteVec 60) pk, qubicIdentity k12 lastByte pk true = id.val ++ [0] →
      getPublicKeyFromIdentity id = none ∧ ∃ e, identityToPubkey k12 id.val = .error e) := by
  refine ⟨qubicIdentity_eq k12 lastByte, fun id pk => ?_, fun id pk h => ?_⟩
  · rw [identityToPubkey_eq_ok, qubicIdentity_eq, List.append_left_inj]
    constructor
    · intro hid
      refine ⟨?_, hid.symm⟩
      -- the reference decodes letters only, and these are letters
      have hupper : (id.val.take 56).all isAsciiUppercase = true := by
        have hall := pubkeyToIdentity_uppercase k12 pk
        rw [← hid, ← List.take_append_drop 56 id.val, List.all_append, Bool.and_eq_true] at hall
        exact hall.1
      rw [getPublicKeyFromIdentity_eq, if_pos hupper, hid, decodeKey_pubkeyToIdentity]
    · exact fun h => h.2.symm
  -- both decoders refuse the first letter of a lower-case identity
  · obtain ⟨c, rest, hlower, hc⟩ := qubicIdentity_lower k12 lastByte pk
    rw [hlower] at h
    obtain ⟨letters, hlen⟩ := id
    cases letters with
    | nil => cases hlen
    | cons d letters =>
      obtain ⟨rfl, -⟩ := List.cons.inj h
      refine ⟨?_, .notLetters (c :: letters), ?_⟩
      · rw [getPublicKeyFromIdentity_eq, if_neg]
        rw [List.take_succ_cons, List.all_cons, hc, Bool.false_and]
        exact Bool.false_ne_true
      · rw [identityToPubkey, if_pos]
        refine .inr ?_
        rw [List.all_cons, hc, Bool.false_and]
        exact Bool.false_ne_true

end ZkQuorum.Identity
