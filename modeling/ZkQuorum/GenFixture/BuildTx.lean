import ZkQuorum.Guest.Layout

/-!
# Building transactions (crypto/tools/gen_fixture.c)

`build_tx` lays out a signed transaction. `parseTx_buildTx` is the agreement with
the guest: `parse_tx` reads back the fields `build_tx` was given, and
`tx_signature_valid` hashes the bytes `build_tx` signed.
-/

namespace ZkQuorum.GenFixture

open LittleEndian Rust Guest

/-- `key_t_`: a public key, and `qubic_sign` under its subseed. -/
structure Key where
  pub : ByteVec 32
  sign : ByteVec 32 → ByteVec 64

/-- The header and the input: the part of a transaction that is signed. -/
def signedPart (signer : Key) (amount : Int64) (tick : UInt32) (inputType : UInt16)
    (input : Bytes) : Bytes :=
  signer.pub.val ++ List.replicate 32 0 ++ ofI64 amount ++ ofU32 tick ++ ofU16 inputType
    ++ ofU16 (UInt16.ofNat input.length) ++ input

/-- `build_tx`: header, input and signature. The destination is zero. -/
def buildTx (E : Externs) (signer : Key) (amount : Int64) (tick : UInt32) (inputType : UInt16)
    (input : Bytes) : Bytes :=
  let signed := signedPart signer amount tick inputType input
  signed ++ (signer.sign (E.qubicK12 signed)).val

/-- The transaction the guest reads back. -/
def txOf (E : Externs) (signer : Key) (amount : Int64) (tick : UInt32) (inputType : UInt16)
    (input : Bytes) : Tx where
  source := signer.pub.val
  destIsZero := true
  amount := amount
  tick := tick
  inputType := inputType
  input := input
  sig := (signer.sign (E.qubicK12 (signedPart signer amount tick inputType input))).val

section Layout

variable (E : Externs) (signer : Key) (amount : Int64) (tick : UInt32) (inputType : UInt16)
  (input : Bytes)

theorem length_signedPart :
    (signedPart signer amount tick inputType input).length = txHeaderSize + input.length := by
  simp only [signedPart, List.length_append, signer.pub.property, List.length_replicate,
    length_ofI64, length_ofU32, length_ofU16]

theorem length_buildTx :
    (buildTx E signer amount tick inputType input).length
      = txHeaderSize + input.length + signatureSize := by
  rw [buildTx, List.length_append, length_signedPart, ByteVec.length_val]

/-- What `tx_signature_valid` hashes is what `build_tx` signed. -/
theorem take_buildTx :
    (buildTx E signer amount tick inputType input).take
        ((buildTx E signer amount tick inputType input).length - signatureSize)
      = signedPart signer amount tick inputType input := by
  rw [length_buildTx, Nat.add_sub_cancel]
  exact List.take_left' (length_signedPart signer amount tick inputType input)

variable {input}

/-- A built transaction is laid out from its fields and a zero destination. -/
theorem layout_buildTx (h : input.length < 2 ^ 16) :
    Layout (buildTx E signer amount tick inputType input) (List.replicate 32 0)
      (txOf E signer amount tick inputType input) where
  source := signer.pub.property
  destination := List.length_replicate
  destIsZero := rfl
  input := h
  sig := ByteVec.length_val _
  bytes := rfl

/-- **`parse_tx` reads back what `build_tx` wrote.** -/
theorem parseTx_buildTx (h : input.length < 2 ^ 16) :
    parseTx (buildTx E signer amount tick inputType input)
      = .ok (some (txOf E signer amount tick inputType input)) :=
  parseTx_eq_some_iff.mpr ⟨_, layout_buildTx E signer amount tick inputType h⟩

variable {E signer}

/-- `k`'s signatures verify under its public key. -/
def Signs (E : Externs) (k : Key) : Prop := ∀ d, E.fourqVerify k.pub (k.sign d) d = true

theorem signatureValid_buildTx (h : Signs E signer) :
    SignatureValid E (buildTx E signer amount tick inputType input)
      (txOf E signer amount tick inputType input) := by
  refine ⟨signer.pub, _, rfl, rfl, ?_⟩
  rw [take_buildTx]
  exact h _

end Layout

end ZkQuorum.GenFixture
