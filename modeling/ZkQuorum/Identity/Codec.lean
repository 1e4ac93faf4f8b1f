import ZkQuorum.Lib.Rust

/-!
# Identities (methods/guest/identity.rs, methods/guest/src/main.rs)

A Qubic identity spells a 32-byte key in 60 letters: four groups of 14 letters,
one for each `u64` limb, and 4 letters of an 18-bit checksum. The build script
decodes the configured arbitrator identity, passes the key on in hex and the guest
reads the hex back at compile time.

A `str` is its UTF-8 bytes here. `k12` is an arbitrary function of the key, with 3
bytes of output. `u64` arithmetic wraps.
-/

namespace ZkQuorum.Identity

open LittleEndian

/-- `n` letters of a number, least significant digit first: the loop body
`s.push(b'A' + (frag % 26) as u8); frag /= 26`. -/
def pushLetters : Nat → Nat → Bytes
  | 0, _ => []
  | n + 1, frag => (65 + UInt8.ofNat (frag % 26)) :: pushLetters n (frag / 26)

/-- The `i`-th `u64` of a key. -/
def limb (pk : ByteVec 32) (i : Nat) : UInt64 := toU64 ((pk.val.drop (i * 8)).take 8)

/-- The checksum: the low 18 bits of the hash. -/
def checksum (k12 : Bytes → ByteVec 3) (pk : ByteVec 32) : UInt32 :=
  toU32 ((k12 pk.val).val ++ [0]) &&& 0x3FFFF

/-- `pubkey_to_identity`. -/
def pubkeyToIdentity (k12 : Bytes → ByteVec 3) (pk : ByteVec 32) : Bytes :=
  (List.range 4).flatMap (fun i => pushLetters 14 (limb pk i).toNat)
    ++ pushLetters 4 (checksum k12 pk).toNat

/-- The errors of `identity_to_pubkey`. -/
inductive IdentityError where
  /-- "identity must be 60 upper-case letters, got {id}" -/
  | notLetters (id : Bytes)
  /-- "identity checksum mismatch: {id} (expected {expect})" -/
  | mismatch (id expect : Bytes)
deriving DecidableEq

/-- `c.is_ascii_uppercase()`. -/
def isAsciiUppercase (c : UInt8) : Bool := decide (65 ≤ c) && decide (c ≤ 90)

/-- The loop over a group of letters, last letter first:
`frag = frag * 26 + (c - b'A') as u64`. -/
def decodeGroup (group : Bytes) : UInt64 :=
  group.reverse.foldl (fun frag c => frag * 26 + (c - 65).toUInt64) 0

/-- The key that 56 letters spell. -/
def decodeKey (b : Bytes) : ByteVec 32 :=
  ⟨(List.range 4).flatMap fun i => ofU64 (decodeGroup ((b.drop (i * 14)).take 14)), by
    rw [length_flatMap_blocks fun i _ => length_ofU64 _, List.length_range]⟩

/-- `identity_to_pubkey`. -/
def identityToPubkey (k12 : Bytes → ByteVec 3) (id : Bytes) : Except IdentityError (ByteVec 32) :=
  if id.length ≠ 60 ∨ ¬ id.all isAsciiUppercase then .error (.notLetters id)
  else
    let pk := decodeKey id
    let expect := pubkeyToIdentity k12 pk
    if expect ≠ id then .error (.mismatch id expect)
    else .ok pk

/-- A lower-case hex digit of `format!("{b:02x}")`. -/
def hexDigit (n : Nat) : UInt8 := UInt8.ofNat (if n < 10 then 48 + n else 87 + n)

/-- `hex32` of identity.rs: `format!("{b:02x}")` of each byte. -/
def hex32 (pk : ByteVec 32) : Bytes :=
  pk.val.flatMap fun b => [hexDigit (b.toNat / 16), hexDigit (b.toNat % 16)]

end ZkQuorum.Identity

namespace ZkQuorum.Guest

open Rust

/-- `nib`. -/
def nib (c : UInt8) : Rust UInt8 :=
  if 48 ≤ c ∧ c ≤ 57 then .ok (c - 48)
  else if 97 ≤ c ∧ c ≤ 102 then .ok (c - 97 + 10)
  else if 65 ≤ c ∧ c ≤ 70 then .ok (c - 65 + 10)
  else panicWith "bad hex"

/-- The loop of `hex32` over pairs of characters. -/
def hexLoop : Bytes → Rust Bytes
  | c :: d :: rest => do
    let hi ← nib c
    let lo ← nib d
    let out ← hexLoop rest
    return ((hi <<< 4) ||| lo) :: out
  | _ => .ok []

/-- The guest's `const fn hex32`. -/
def hex32 (s : Bytes) : Rust (ByteVec 32) := do
  assert (s.length == 64) "ZKQ_ARBITRATOR_PUBKEY_HEX must be 64 hex chars"
  toArray 32 (← hexLoop s)

end ZkQuorum.Guest
