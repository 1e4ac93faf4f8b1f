import ZkQuorum.CheckFixture.Main
import ZkQuorum.Guest.Steps

/-!
# The checks of the fixture checker

Each check of `check_fixture` against the predicate of the guest statement it
re-implements: other parsing code, a linear lookup, another order.
-/

namespace ZkQuorum.CheckFixture

open LittleEndian Guest

/-! ## Integers -/

theorem getU16_eq {p : Bytes} (h : 2 ≤ p.length) : getU16 p = toU16 (p.take 2) := by
  match p, h with
  | a :: b :: p, _ => exact shiftOr16_eq a b

theorem getU32_eq {p : Bytes} (h : 4 ≤ p.length) : getU32 p = toU32 (p.take 4) := by
  match p, h with
  | a :: b :: c :: d :: p, _ => exact shiftOr32_eq a b c d

theorem getU64_eq {p : Bytes} (h : 8 ≤ p.length) : getU64 p = toU64 (p.take 8) := by
  have hlo : (p.take 4).length = 4 := List.length_take_of_le (by omega)
  have hhi : ((p.drop 4).take 4).length = 4 := by
    rw [List.length_take, List.length_drop]
    omega
  rw [getU64, getU32_eq (by omega), getU32_eq (by rw [List.length_drop]; omega),
    shiftOr64_eq hlo hhi, ← List.take_add]

theorem getU32_of_length {p : Bytes} (h : p.length = 4) : getU32 p = toU32 p := by
  rw [getU32_eq (Nat.le_of_eq h.symm), List.take_of_length_le (Nat.le_of_eq h)]

theorem getU64_of_length {p : Bytes} (h : p.length = 8) : getU64 p = toU64 p := by
  rw [getU64_eq (Nat.le_of_eq h.symm), List.take_of_length_le (Nat.le_of_eq h)]

/-! ## Transactions -/

theorem verifyAt_eq {E : Externs} {pk : ByteVec 32} {sig : ByteVec 64} {p s : Bytes}
    (hp : p.take 32 = pk.val) (hs : s.take 64 = sig.val) (d : ByteVec 32) :
    verifyAt E p s d = E.fourqVerify pk sig d := by
  rw [verifyAt, hp, hs, Rust.toArray_val, Rust.toArray_val]

/-- What `tx_ok` reads at its own offsets are the fields `parse_tx` takes. -/
theorem fields_read {raw : Bytes} (h : 144 ≤ raw.length) :
    (getU16 (raw.drop 78)).toNat = inputSizeField raw ∧
      getU16 (raw.drop 76) = (fieldsOf raw).inputType ∧
      (getU64 (raw.drop 64)).toInt64 = (fieldsOf raw).amount := by
  refine ⟨?_, ?_, ?_⟩
  · exact congrArg UInt16.toNat (getU16_eq (by rw [List.length_drop]; omega))
  · exact getU16_eq (by rw [List.length_drop]; omega)
  · exact congrArg UInt64.toInt64 (getU64_eq (by rw [List.length_drop]; omega))

/-- In a well-sized transaction `tx_ok` checks the signature that `parse_tx` takes. -/
theorem verifyAt_iff {E : Externs} {raw : Bytes} (hw : WellSized raw) :
    verifyAt E raw (raw.drop (raw.length - 64)) (E.qubicK12 (raw.take (raw.length - 64))) = true ↔
      SignatureValid E raw (fieldsOf raw) := by
  have hlen := wellSized_iff.mp hw
  have hsig : (raw.drop (raw.length - 64)).take 64 = (fieldsOf raw).sig := by
    rw [fieldsOf, hlen, show 144 + inputSizeField raw - 64 = txHeaderSize + inputSizeField raw by
      simp only [txHeaderSize]; omega]
  let pk : ByteVec 32 := ⟨_, length_source hw⟩
  let sig : ByteVec 64 := ⟨_, length_sig hw⟩
  have hpk : raw.take 32 = pk.val := rfl
  have hsg : (raw.drop (raw.length - 64)).take 64 = sig.val := hsig
  rw [verifyAt_eq hpk hsg]
  constructor
  · intro h
    exact ⟨pk, sig, rfl, rfl, h⟩
  · rintro ⟨pk', sig', hpk', hsg', h⟩
    rw [show pk = pk' from Subtype.ext hpk'.symm, show sig = sig' from Subtype.ext hsg'.symm]
    exact h

/-- A transaction that parses is the one of its fields. -/
theorem exists_parsed_iff {raw : Bytes} {p : Tx → Prop} :
    (∃ tx, parseTx raw = .ok (some tx) ∧ p tx) ↔ WellSized raw ∧ p (fieldsOf raw) := by
  constructor
  · rintro ⟨tx, hparse, hp⟩
    obtain ⟨hw, rfl⟩ := parseTx_eq_some.mp hparse
    exact ⟨hw, hp⟩
  · rintro ⟨hw, hp⟩
    exact ⟨_, parseTx_eq_some.mpr ⟨hw, rfl⟩, hp⟩

/-- **`tx_ok` accepts the parsed transactions** of the asked type, with destination
zero, the asked amount and a valid signature. -/
theorem txOk_iff {E : Externs} {raw : Bytes} {type : UInt16} {amount : Int64}
    {checkAmount : Bool} :
    txOk E raw type amount checkAmount = true ↔
      ∃ tx, parseTx raw = .ok (some tx) ∧ tx.inputType = type ∧ tx.destIsZero = true ∧
        (checkAmount = true → tx.amount = amount) ∧ SignatureValid E raw tx := by
  rw [exists_parsed_iff, txOk]
  by_cases hshort : raw.length < txHeaderSize + 64
  · -- too short for the header: not well-sized either
    rw [if_pos hshort]
    refine ⟨fun h => (nomatch h), ?_⟩
    rintro ⟨hw, -⟩
    have hlen := wellSized_iff.mp hw
    simp only [txHeaderSize] at hshort
    omega
  rw [if_neg hshort]
  simp only [txHeaderSize, Nat.not_lt] at hshort
  obtain ⟨hsize, htype, hamount⟩ := fields_read hshort
  have hdest : zero32 (raw.drop 32) = (fieldsOf raw).destIsZero := rfl
  simp only [hsize, htype, hdest, hamount]
  by_cases hhead : txHeaderSize + inputSizeField raw + 64 ≠ raw.length
      ∨ (fieldsOf raw).inputType ≠ type ∨ ¬ (fieldsOf raw).destIsZero = true
  · rw [if_pos hhead]
    refine ⟨fun h => (nomatch h), ?_⟩
    rintro ⟨hw, h1, h2, -⟩
    rcases hhead with h | h | h
    · exact absurd hw.symm h
    · exact absurd h1 h
    · exact absurd h2 h
  rw [if_neg hhead]
  simp only [not_or, not_not] at hhead
  obtain ⟨hlen, htype', hdest'⟩ := hhead
  have hw : WellSized raw := hlen.symm
  by_cases ham : checkAmount = true ∧ (fieldsOf raw).amount ≠ amount
  · rw [if_pos ham]
    refine ⟨fun h => (nomatch h), ?_⟩
    rintro ⟨-, -, -, h3, -⟩
    exact absurd (h3 ham.1) ham.2
  · rw [if_neg ham, verifyAt_iff hw]
    constructor
    · intro h
      exact ⟨hw, htype', hdest', fun hc => not_not.mp fun hne => ham ⟨hc, hne⟩, h⟩
    · rintro ⟨-, -, -, -, h⟩
      exact h

/-- The tick `main` reads from a transaction that passed `tx_ok`. -/
theorem getU32_tick {raw : Bytes} {tx : Tx} (h : parseTx raw = .ok (some tx)) :
    getU32 (raw.drop 72) = tx.tick := by
  obtain ⟨hw, rfl⟩ := parseTx_eq_some.mp h
  have hlen := wellSized_iff.mp hw
  exact getU32_eq (by rw [List.length_drop]; omega)

/-- The input and the source the checker reads from it. -/
theorem input_read {raw : Bytes} {tx : Tx} (h : parseTx raw = .ok (some tx)) :
    (raw.drop txHeaderSize).take (getU16 (raw.drop 78)).toNat = tx.input := by
  obtain ⟨hw, rfl⟩ := parseTx_eq_some.mp h
  have hlen := wellSized_iff.mp hw
  rw [getU16_eq (by rw [List.length_drop]; omega)]
  rfl

theorem source_read {raw : Bytes} {tx : Tx} (h : parseTx raw = .ok (some tx)) :
    raw.take 32 = tx.source := by
  obtain ⟨-, rfl⟩ := parseTx_eq_some.mp h
  rfl

/-! ## The list -/

section List

variable {packet : Bytes}

/-- The key at a position of the packet is the key at that position of the list. -/
theorem keyAt_eq {i : Nat} (hi : i < numberOfComputors) :
    keyAt packet i = pubkeyAt (pubkeysOf packet) i := by
  have hi' : i * 32 + 32 ≤ numberOfComputors * 32 := by omega
  rw [keyAt, pubkeyAt, pubkeysOf, List.drop_take, List.take_take, List.drop_drop,
    Nat.min_eq_left (by omega), Nat.mul_comm]

theorem noRepeatedPubkey_iff :
    noRepeatedPubkey packet = true ↔ DistinctKeys (pubkeysOf packet) := by
  simp only [noRepeatedPubkey, List.all_eq_true, List.mem_finRange, true_imp_iff,
    Bool.not_eq_true', Bool.and_eq_false_iff, decide_eq_false_iff_not, beq_eq_false_iff_ne]
  constructor
  · intro h i j hi hj hkey
    rw [← keyAt_eq hi, ← keyAt_eq hj] at hkey
    rcases Nat.lt_trichotomy i j with hij | hij | hij
    · exact absurd hkey ((h ⟨i, hi⟩ ⟨j, hj⟩).resolve_left (not_not.mpr hij))
    · exact hij
    · exact absurd hkey.symm ((h ⟨j, hj⟩ ⟨i, hi⟩).resolve_left (not_not.mpr hij))
  · intro h i j
    by_cases hij : i < j
    · refine Or.inr fun hkey => ?_
      rw [keyAt_eq i.isLt, keyAt_eq j.isLt] at hkey
      exact absurd (h i j i.isLt j.isLt hkey) (Nat.ne_of_lt hij)
    · exact Or.inl hij

/-- **The linear lookup finds exactly the listed keys**, each at its position. -/
theorem computorIndex_eq_some (hd : DistinctKeys (pubkeysOf packet)) {pk : Bytes}
    {i : Fin numberOfComputors} :
    computorIndex packet pk = some i ↔ ListedAt (pubkeysOf packet) i (pk.take 32) := by
  have hkey : ∀ j : Fin numberOfComputors, (keyAt packet j == pk.take 32) = true ↔
      pubkeyAt (pubkeysOf packet) j = pk.take 32 := by
    intro j
    rw [beq_iff_eq, keyAt_eq j.isLt]
  have hsound : ∀ {j}, computorIndex packet pk = some j →
      ListedAt (pubkeysOf packet) j (pk.take 32) := by
    intro j hj
    rw [computorIndex] at hj
    have hp := List.find?_some hj
    exact ⟨j.isLt, (hkey j).mp hp⟩
  refine ⟨hsound, fun hi => ?_⟩
  cases hfind : computorIndex packet pk with
  | none =>
    rw [computorIndex, List.find?_eq_none] at hfind
    exact absurd ((hkey i).mpr hi.2) (hfind i (List.mem_finRange i))
  | some j =>
    obtain ⟨hj, hjkey⟩ := hsound hfind
    rw [Fin.ext (hd j i hj i.isLt (hjkey.trans hi.2.symm))]

end List

end ZkQuorum.CheckFixture
