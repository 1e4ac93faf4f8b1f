import ZkQuorum.Contract.Verifier
import ZkQuorum.Host.Run
import Mathlib.Data.List.FinRange

/-!
# The journal in three languages

The guest lays the journal out with byte copies, the host decodes it with slice
conversions, the contract with shifts, `or` and narrowing casts. Here the three
are compared with one layout: `epoch u32 LE | queryId u64 LE | digest`.
-/

namespace ZkQuorum.Contract

open LittleEndian Rust

/-- The part of `n` bytes at offset `i`, byte by byte. -/
theorem take_drop_eq_ofFn {N : Nat} (v : ByteVec N) {i n : Nat} (h : i + n ≤ N) :
    (v.val.drop i).take n = List.ofFn fun k : Fin n => v.byte ⟨i + k, by omega⟩ := by
  have hv := v.property
  apply List.ext_getElem
  · rw [List.length_take, List.length_drop, List.length_ofFn]
    omega
  · intro k hk hk'
    rw [List.getElem_take, List.getElem_drop, List.getElem_ofFn]
    rfl

/-- One round of the shift-and-or loop appends a byte. -/
theorem shiftOr_step {k : Nat} (hk : k < 8) {q : UInt64} {bs : Bytes} (hbs : bs.length = k)
    (hq : q.toNat = toNat bs) (b : UInt8) :
    (q ||| (b.toUInt64 <<< UInt64.ofNat (8 * k))).toNat = toNat (bs ++ [b]) := by
  have hlt : toNat bs < 2 ^ (8 * k) := by
    have := toNat_lt bs
    rwa [hbs, show 256 = 2 ^ 8 from rfl, ← pow_mul] at this
  have hmod : (UInt64.ofNat (8 * k)).toNat % 64 = 8 * k := by
    rw [UInt64.toNat_ofNat']
    omega
  rw [UInt64.toNat_or, UInt64.toNat_shiftLeft, hmod, UInt8.toNat_toUInt64,
    Nat.mod_eq_of_lt (shiftLeft_lt b (by omega)), hq, or_shiftLeft_eq_add hlt, toNat_append, hbs,
    toNat_cons, toNat_nil, pow_mul, Nat.mul_zero, Nat.add_zero]
  rfl

/-- The loop spells its bytes, least significant first. -/
theorem shiftOr_loop {k : Nat} (hk : k ≤ 8) (f : Fin k → UInt8) :
    ((List.finRange k).foldl
      (fun (q : UInt64) (i : Fin k) => q ||| ((f i).toUInt64 <<< UInt64.ofNat (8 * i))) 0).toNat
        = toNat (List.ofFn f) := by
  induction k with
  | zero => rfl
  | succ k ih =>
    rw [List.finRange_succ_last, List.foldl_append, List.foldl_map, List.ofFn_succ_last]
    exact shiftOr_step hk List.length_ofFn (ih (Nat.le_of_succ_le hk) fun i => f i.castSucc) _

theorem decodeQueryId_eq (journal : ByteVec 44) :
    decodeQueryId journal = toU64 ((journal.val.drop 4).take 8) := by
  apply UInt64.toNat_inj.mp
  rw [toNat_toU64 (by rw [List.length_take, List.length_drop, journal.property]; rfl),
    take_drop_eq_ofFn journal (by decide)]
  exact shiftOr_loop (Nat.le_refl 8) fun i => journal.byte ⟨4 + i, by omega⟩

theorem decodeEpoch_eq (journal : ByteVec 44) :
    decodeEpoch journal = toU32 (journal.val.take 4) := by
  have hbytes : journal.val.take 4
      = [journal.byte 0, journal.byte 1, journal.byte 2, journal.byte 3] := by
    rw [← List.drop_zero (l := journal.val), take_drop_eq_ofFn journal (by decide)]
    rfl
  rw [hbytes]
  exact shiftOr32_eq _ _ _ _

/-- The three parts of a journal in the contract's eyes. -/
def decode (journal : ByteVec 44) : UInt32 × UInt64 × ByteVec 32 :=
  (decodeEpoch journal, decodeQueryId journal, decodeDigest journal)

/-- `epoch u32 LE | queryId u64 LE | digest`. -/
def encode (epoch : UInt32) (queryId : UInt64) (digest : ByteVec 32) : ByteVec 44 :=
  ⟨ofU32 epoch ++ ofU64 queryId ++ digest.val, by
    rw [List.length_append, List.length_append, length_ofU32, length_ofU64, digest.property]⟩

/-- The contract decodes what is laid out. -/
theorem decode_encode (epoch : UInt32) (queryId : UInt64) (digest : ByteVec 32) :
    decode (encode epoch queryId digest) = (epoch, queryId, digest) := by
  have hepoch : (encode epoch queryId digest).val.take 4 = ofU32 epoch := by
    show (ofU32 epoch ++ ofU64 queryId ++ digest.val).take 4 = ofU32 epoch
    rw [List.append_assoc]
    exact List.take_left' (length_ofU32 epoch)
  have hqueryId : ((encode epoch queryId digest).val.drop 4).take 8 = ofU64 queryId :=
    take_drop_middle (length_ofU32 epoch) (length_ofU64 queryId)
  have hdigest : (encode epoch queryId digest).val.drop 12 = digest.val :=
    List.drop_left' (by rw [List.length_append, length_ofU32, length_ofU64])
  rw [decode, decodeEpoch_eq, decodeQueryId_eq, hepoch, hqueryId, toU32_ofU32, toU64_ofU64]
  exact congrArg (fun d => (epoch, queryId, d)) (Subtype.ext hdigest)

theorem length_parts (journal : ByteVec 44) :
    (journal.val.take 4).length = 4 ∧ ((journal.val.drop 4).take 8).length = 8 ∧
      (journal.val.drop 12).length = 32 := by
  rw [List.length_take, List.length_take, List.length_drop, List.length_drop, journal.property]
  decide

/-- Laying out what was decoded gives back the journal. -/
theorem encode_decode (journal : ByteVec 44) :
    encode (decode journal).1 (decode journal).2.1 (decode journal).2.2 = journal := by
  obtain ⟨h4, h8, -⟩ := length_parts journal
  apply Subtype.ext
  show ofU32 (decodeEpoch journal) ++ ofU64 (decodeQueryId journal) ++ journal.val.drop 12 = _
  rw [decodeEpoch_eq, decodeQueryId_eq, ofU32_toU32 h4, ofU64_toU64 h8,
    show journal.val.drop 12 = (journal.val.drop 4).drop 8 by rw [List.drop_drop],
    List.append_assoc, List.take_append_drop, List.take_append_drop]

/-- The host decodes as the contract does. -/
theorem decodeJournal_eq (journal : ByteVec 44) :
    Host.decodeJournal journal.val = .ok (decode journal) := by
  obtain ⟨h4, h8, h32⟩ := length_parts journal
  have hlen := journal.property
  rw [Host.decodeJournal, hlen, beq_self_eq_true, assert_true, ok_bind,
    slice_of_le (by decide) (by omega), ok_bind, slice_of_le (by decide) (by omega),
    slice_of_le (by decide) (by omega), List.drop_zero, Nat.sub_zero, toArray_of_length h4, ok_bind,
    ok_bind, toArray_of_length h8, ok_bind, ok_bind,
    List.take_of_length_le (Nat.le_of_eq (by rw [h32])), toArray_of_length h32, ok_bind, decode,
    decodeEpoch_eq, decodeQueryId_eq]
  rfl

/-- **The journal means the same in the three languages.** -/
theorem journal_agreement :
    (∀ (epoch : UInt16) (queryId : UInt64) (digest : ByteVec 32),
      ∃ journal : ByteVec 44, Guest.buildJournal epoch (bytesOfU64 queryId) digest
        = .ok journal.val ∧
        Host.decodeJournal journal.val = .ok (epoch.toUInt32, queryId, digest) ∧
        decode journal = (epoch.toUInt32, queryId, digest)) ∧
    (∀ journal : ByteVec 44, Host.decodeJournal journal.val = .ok (decode journal)) ∧
    (∀ journal journal' : ByteVec 44, decode journal = decode journal' → journal = journal') ∧
    (∀ journal : ByteVec 44,
      ofU32 (decode journal).1 ++ ofU64 (decode journal).2.1 ++ (decode journal).2.2.val
        = journal.val) := by
  refine ⟨fun epoch queryId digest => ?_, decodeJournal_eq, fun journal journal' h => ?_,
    fun journal => congrArg Subtype.val (encode_decode journal)⟩
  · refine ⟨encode epoch.toUInt32 queryId digest, ?_, ?_, decode_encode _ _ _⟩
    · exact Guest.buildJournal_eq epoch (bytesOfU64 queryId) digest
    · rw [decodeJournal_eq, decode_encode]
  · rw [← encode_decode journal, h, encode_decode]

end ZkQuorum.Contract
