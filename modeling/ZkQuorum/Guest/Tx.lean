import ZkQuorum.Lib.Rust
import ZkQuorum.Lib.Search

/-!
# Transactions and signatures (methods/guest/src/main.rs)

The parts of the guest that look at one transaction: `parse_tx`, the K12 and
SchnorrQ wrappers and `tx_signature_valid`.

The guest's two C functions are parameters (`Externs`): `qubic_k12` and
`fourq_verify` are arbitrary functions of their byte arrays here. So are the
arbitrator key baked in at build time and the standard library's unstable sort.

`parseTx_eq` says what `parse_tx` returns on every byte string, and with it that
none of its slice indices is out of range.
-/

namespace ZkQuorum.Guest

open LittleEndian Rust

abbrev numberOfComputors : Nat := 676
abbrev quorum : Nat := 451
abbrev signatureSize : Nat := 64
abbrev packetSize : Nat := 2 + numberOfComputors * 32 + signatureSize
/-- Bytes covered by the arbitrator signature. -/
abbrev packetSignedSize : Nat := packetSize - signatureSize
abbrev txHeaderSize : Nat := 80
abbrev commitItemSize : Nat := 8 + 32 + 32
abbrev queryInputType : UInt16 := 10
abbrev commitInputType : UInt16 := 6
abbrev revealInputType : UInt16 := 7
abbrev journalSize : Nat := 4 + 8 + 32

/-- What the guest is linked against. -/
structure Externs where
  /-- `qubic_k12`: K12 with 32 bytes of output -/
  qubicK12 : Bytes → ByteVec 32
  /-- `fourq_verify pubkey sig digest == 1` -/
  fourqVerify : ByteVec 32 → ByteVec 64 → ByteVec 32 → Bool
  /-- `ARBITRATOR_PUBKEY` -/
  arbitratorPubkey : ByteVec 32
  /-- `sort_unstable_by_key` -/
  sort : Search.KeySort Bytes UInt16

/-- `k12`. -/
def k12 (E : Externs) (data : Bytes) : ByteVec 32 := E.qubicK12 data

/-- `schnorrq_verify`. -/
def schnorrqVerify (E : Externs) (pubkey sig : Bytes) (digest : ByteVec 32) : Rust Bool := do
  let pk ← toArray 32 pubkey
  let s ← toArray 64 sig
  pure (E.fourqVerify pk s digest)

/-- A parsed Qubic transaction. -/
structure Tx where
  source : Bytes
  destIsZero : Bool
  amount : Int64
  tick : UInt32
  inputType : UInt16
  input : Bytes
  sig : Bytes
deriving DecidableEq

/-- `parse_tx`: `none` unless the length is `80 + inputSize + 64`. -/
def parseTx (tx : Bytes) : Rust (Option Tx) := do
  if tx.length < txHeaderSize + signatureSize then
    return none
  let inputSize := (toU16 (← slice tx 78 80)).toNat
  if tx.length ≠ txHeaderSize + inputSize + signatureSize then
    return none
  let source ← slice tx 0 32
  let destination ← slice tx 32 64
  let amount ← slice tx 64 72
  let tick ← slice tx 72 76
  let inputType ← slice tx 76 78
  let input ← slice tx txHeaderSize (txHeaderSize + inputSize)
  let sig ← slice tx (txHeaderSize + inputSize) tx.length
  return some {
    source
    destIsZero := destination.all (· == 0)
    amount := toI64 amount
    tick := toU32 tick
    inputType := toU16 inputType
    input
    sig }

/-- `tx_signature_valid`: SchnorrQ(source) over K12(tx bytes minus signature). -/
def txSignatureValid (E : Externs) (raw : Bytes) (tx : Tx) : Rust Bool := do
  let signed ← slice raw 0 (raw.length - signatureSize)
  schnorrqVerify E tx.source tx.sig (k12 E signed)

/-! ## What `parse_tx` returns -/

/-- The `inputSize` field. -/
def inputSizeField (raw : Bytes) : Nat := (toU16 ((raw.drop 78).take 2)).toNat

/-- A byte string with the length its `inputSize` field asks for. -/
def WellSized (raw : Bytes) : Prop :=
  raw.length = txHeaderSize + inputSizeField raw + signatureSize

instance (raw : Bytes) : Decidable (WellSized raw) := inferInstanceAs (Decidable (_ = _))

/-- The fields at their offsets. -/
def fieldsOf (raw : Bytes) : Tx where
  source := raw.take 32
  destIsZero := ((raw.drop 32).take 32).all (· == 0)
  amount := toI64 ((raw.drop 64).take 8)
  tick := toU32 ((raw.drop 72).take 4)
  inputType := toU16 ((raw.drop 76).take 2)
  input := (raw.drop txHeaderSize).take (inputSizeField raw)
  sig := (raw.drop (txHeaderSize + inputSizeField raw)).take signatureSize

theorem wellSized_iff {raw : Bytes} : WellSized raw ↔ raw.length = 144 + inputSizeField raw := by
  unfold WellSized txHeaderSize signatureSize
  omega

/-- `parse_tx` never panics; it returns the fields of exactly the well-sized
strings. -/
theorem parseTx_eq (raw : Bytes) :
    parseTx raw = .ok (if WellSized raw then some (fieldsOf raw) else none) := by
  have hfield : (toU16 ((raw.drop 78).take (80 - 78))).toNat = inputSizeField raw := rfl
  rw [parseTx]
  by_cases hshort : raw.length < txHeaderSize + signatureSize
  · have hw : ¬ WellSized raw := by
      rw [wellSized_iff]
      simp only [txHeaderSize, signatureSize] at hshort
      omega
    rw [if_pos hshort, if_neg hw]
    rfl
  · rw [if_neg hshort]
    simp only [txHeaderSize, signatureSize] at hshort ⊢
    rw [slice_of_le (by omega) (by omega), ok_bind]
    simp only [hfield]
    by_cases hw : WellSized raw
    · have hlen := wellSized_iff.mp hw
      have hsig : raw.length - (80 + inputSizeField raw) = signatureSize := by
        simp only [signatureSize]
        omega
      rw [if_neg (not_not.mpr (by omega)), if_pos hw,
        slice_of_le (by omega) (by omega), slice_of_le (by omega) (by omega),
        slice_of_le (by omega) (by omega), slice_of_le (by omega) (by omega),
        slice_of_le (by omega) (by omega), slice_of_le (by omega) (by omega),
        slice_of_le (by omega) (by omega)]
      simp only [ok_bind, pure_eq_ok, hsig, Nat.add_sub_cancel_left]
      rfl
    · have hlen : ¬ raw.length = 144 + inputSizeField raw := mt wellSized_iff.mpr hw
      rw [if_pos (by omega), if_neg hw]
      rfl

/-- A parsed transaction is well sized and has the fields at their offsets. -/
theorem parseTx_eq_some {raw : Bytes} {tx : Tx} :
    parseTx raw = .ok (some tx) ↔ WellSized raw ∧ tx = fieldsOf raw := by
  rw [parseTx_eq]
  by_cases hw : WellSized raw
  · simp [hw, eq_comm]
  · simp [hw]

theorem length_source {raw : Bytes} (h : WellSized raw) : (fieldsOf raw).source.length = 32 := by
  have hlen := wellSized_iff.mp h
  simp only [fieldsOf, List.length_take]
  omega

theorem length_sig {raw : Bytes} (h : WellSized raw) : (fieldsOf raw).sig.length = 64 := by
  have hlen := wellSized_iff.mp h
  simp only [fieldsOf, List.length_take, List.length_drop, txHeaderSize, signatureSize]
  omega

theorem length_input {raw : Bytes} (h : WellSized raw) :
    (fieldsOf raw).input.length = inputSizeField raw := by
  have hlen := wellSized_iff.mp h
  simp only [fieldsOf, List.length_take, List.length_drop, txHeaderSize]
  omega

/-! ## Valid signatures -/

/-- The signature of a transaction verifies under its source, over everything
but the signature. -/
def SignatureValid (E : Externs) (raw : Bytes) (tx : Tx) : Prop :=
  ∃ (pk : ByteVec 32) (s : ByteVec 64), pk.val = tx.source ∧ s.val = tx.sig ∧
    E.fourqVerify pk s (E.qubicK12 (raw.take (raw.length - signatureSize))) = true

theorem schnorrqVerify_val (E : Externs) (pk : ByteVec 32) (s : ByteVec 64) (d : ByteVec 32) :
    schnorrqVerify E pk.val s.val d = .ok (E.fourqVerify pk s d) := by
  rw [schnorrqVerify, toArray_val, ok_bind, toArray_val]
  rfl

/-- On a parsed transaction the signature check does not panic, and decides
`SignatureValid`. -/
theorem txSignatureValid_eq (E : Externs) {raw : Bytes} {tx : Tx}
    (h : parseTx raw = .ok (some tx)) :
    ∃ b, txSignatureValid E raw tx = .ok b ∧ (b = true ↔ SignatureValid E raw tx) := by
  obtain ⟨hw, rfl⟩ := parseTx_eq_some.mp h
  let pk : ByteVec 32 := ⟨_, length_source hw⟩
  let s : ByteVec 64 := ⟨_, length_sig hw⟩
  have hsigned : slice raw 0 (raw.length - signatureSize)
      = .ok (raw.take (raw.length - signatureSize)) :=
    slice_of_le (Nat.zero_le _) (Nat.sub_le ..)
  refine ⟨E.fourqVerify pk s (k12 E (raw.take (raw.length - signatureSize))), ?_, ?_⟩
  · rw [txSignatureValid, hsigned, ok_bind]
    exact schnorrqVerify_val E pk s _
  · constructor
    · exact fun hb => ⟨pk, s, rfl, rfl, hb⟩
    · rintro ⟨pk', s', hpk, hs, hb⟩
      have hpk' : pk' = pk := Subtype.ext hpk
      have hs' : s' = s := Subtype.ext hs
      rw [← hpk', ← hs']
      exact hb

end ZkQuorum.Guest
