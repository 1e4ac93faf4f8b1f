import ZkQuorum.Guest.Tx

/-!
# The layout of a transaction (methods/guest/src/main.rs)

`parse_tx` as a decoder. `Layout raw dest t` is the format: `raw` is the fields of `t`
one after the other, with the 32 bytes `dest` behind the source.

`parseTx_eq_some_iff` is the codec in both directions: `parse_tx` returns `t` exactly on
the strings laid out from `t` and some destination. So a string that is refused has no
layout at all, and a destination and the fields leave only one string.
-/

namespace ZkQuorum.Guest

open LittleEndian Rust

/-- `raw` is laid out from a destination and the fields of `t`. -/
structure Layout (raw dest : Bytes) (t : Tx) : Prop where
  source : t.source.length = 32
  destination : dest.length = 32
  destIsZero : t.destIsZero = dest.all (· == 0)
  input : t.input.length < 2 ^ 16
  sig : t.sig.length = signatureSize
  bytes : raw = t.source ++ dest ++ ofI64 t.amount ++ ofU32 t.tick ++ ofU16 t.inputType
    ++ ofU16 (UInt16.ofNat t.input.length) ++ t.input ++ t.sig

namespace Layout

variable {raw raw' dest : Bytes} {t : Tx}

theorem length_raw (h : Layout raw dest t) :
    raw.length = txHeaderSize + t.input.length + signatureSize := by
  rw [h.bytes]
  simp only [List.length_append, h.source, h.destination, h.sig, length_ofI64, length_ofU32,
    length_ofU16]

/-- Nothing else can be laid out from the same fields. -/
theorem unique (h : Layout raw dest t) (h' : Layout raw' dest t) : raw = raw' :=
  h.bytes.trans h'.bytes.symm

/-- The fields sit where `parse_tx` looks for them. -/
theorem fields (h : Layout raw dest t) :
    inputSizeField raw = t.input.length ∧ (raw.drop 32).take 32 = dest ∧ fieldsOf raw = t := by
  have h0 : raw.drop 0 = t.source ++ (dest ++ (ofI64 t.amount ++ (ofU32 t.tick
      ++ (ofU16 t.inputType ++ (ofU16 (UInt16.ofNat t.input.length) ++ (t.input ++ t.sig)))))) := by
    rw [List.drop_zero, h.bytes]
    simp only [List.append_assoc]
  -- one field after the other
  have h32 := drop_add_of_drop h0 h.source
  have h64 := drop_add_of_drop h32 h.destination
  have h72 := drop_add_of_drop h64 (length_ofI64 t.amount)
  have h76 := drop_add_of_drop h72 (length_ofU32 t.tick)
  have h78 := drop_add_of_drop h76 (length_ofU16 t.inputType)
  have h80 := drop_add_of_drop h78 (length_ofU16 _)
  have hend := drop_add_of_drop h80 rfl
  simp only [Nat.zero_add, Nat.reduceAdd] at h32 h64 h72 h76 h78 h80 hend
  have hsize : inputSizeField raw = t.input.length := by
    rw [inputSizeField, h78, List.take_left' (length_ofU16 _), toU16_ofU16, UInt16.toNat_ofNat',
      Nat.mod_eq_of_lt h.input]
  have hdest : (raw.drop 32).take 32 = dest := by rw [h32, List.take_left' h.destination]
  have hsource : raw.take 32 = t.source := by
    rw [← List.drop_zero (l := raw), h0, List.take_left' h.source]
  have hsig : t.sig.take signatureSize = t.sig := List.take_of_length_le (Nat.le_of_eq h.sig)
  refine ⟨hsize, hdest, ?_⟩
  rw [fieldsOf, hsize, hsource, hdest, ← h.destIsZero, h64, h72, h76,
    show txHeaderSize = 80 from rfl, h80, hend, hsig, List.take_left' (length_ofI64 _),
    List.take_left' (length_ofU32 _), List.take_left' (length_ofU16 _), List.take_left' rfl,
    toI64_ofI64, toU32_ofU32, toU16_ofU16]

theorem wellSized (h : Layout raw dest t) : WellSized raw := by
  rw [WellSized, h.fields.1]
  exact h.length_raw

end Layout

/-! ## A well-sized string is laid out -/

/-- The part of `n` bytes at an offset, and what follows it. -/
theorem drop_eq_take_append (s : Bytes) (i n : Nat) :
    s.drop i = (s.drop i).take n ++ s.drop (i + n) := by
  rw [← List.drop_drop, List.take_append_drop]

/-- The parts of a string of at least 80 bytes. -/
theorem eq_parts (raw : Bytes) (n : Nat) :
    raw = raw.take 32 ++ (raw.drop 32).take 32 ++ (raw.drop 64).take 8 ++ (raw.drop 72).take 4
      ++ (raw.drop 76).take 2 ++ (raw.drop 78).take 2 ++ (raw.drop 80).take n
      ++ raw.drop (80 + n) := by
  simp only [List.append_assoc]
  rw [← drop_eq_take_append raw 80 n, ← drop_eq_take_append raw 78 2,
    ← drop_eq_take_append raw 76 2, ← drop_eq_take_append raw 72 4,
    ← drop_eq_take_append raw 64 8, ← drop_eq_take_append raw 32 32, List.take_append_drop]

theorem ofI64_toI64 {bs : Bytes} (h : bs.length = 8) : ofI64 (toI64 bs) = bs := by
  rw [ofI64, toI64, UInt64.toUInt64_toInt64]
  exact ofU64_toU64 h

/-- The fields of a well-sized string are its parts. -/
theorem layout_fieldsOf {raw : Bytes} (hw : WellSized raw) :
    Layout raw ((raw.drop 32).take 32) (fieldsOf raw) := by
  have hlen := wellSized_iff.mp hw
  have hinput := length_input hw
  have hpart : ∀ i n, i + n ≤ 80 → ((raw.drop i).take n).length = n := by
    intro i n hle
    rw [List.length_take, List.length_drop]
    omega
  refine ⟨length_source hw, hpart 32 32 (by decide), rfl, ?_, length_sig hw, ?_⟩
  · rw [hinput]
    exact UInt16.toNat_lt _
  · have hsize : ofU16 (UInt16.ofNat (fieldsOf raw).input.length) = (raw.drop 78).take 2 := by
      rw [hinput, inputSizeField, UInt16.ofNat_toNat, ofU16_toU16 (hpart 78 2 (by decide))]
    have hsig : (fieldsOf raw).sig = raw.drop (80 + inputSizeField raw) := by
      refine List.take_of_length_le ?_
      show (raw.drop (80 + inputSizeField raw)).length ≤ 64
      rw [List.length_drop]
      omega
    rw [hsize, hsig]
    show raw = raw.take 32 ++ (raw.drop 32).take 32 ++ ofI64 (toI64 ((raw.drop 64).take 8))
      ++ ofU32 (toU32 ((raw.drop 72).take 4)) ++ ofU16 (toU16 ((raw.drop 76).take 2))
      ++ (raw.drop 78).take 2 ++ (raw.drop 80).take (inputSizeField raw)
      ++ raw.drop (80 + inputSizeField raw)
    rw [ofI64_toI64 (hpart 64 8 (by decide)), ofU32_toU32 (hpart 72 4 (by decide)),
      ofU16_toU16 (hpart 76 2 (by decide))]
    exact eq_parts raw (inputSizeField raw)

/-- **`parse_tx` returns `t` exactly on what is laid out from `t`.** -/
theorem parseTx_eq_some_iff {raw : Bytes} {t : Tx} :
    parseTx raw = .ok (some t) ↔ ∃ dest, Layout raw dest t := by
  rw [parseTx_eq_some]
  constructor
  · rintro ⟨hw, rfl⟩
    exact ⟨_, layout_fieldsOf hw⟩
  · rintro ⟨dest, h⟩
    exact ⟨h.wellSized, h.fields.2.2.symm⟩

/-- It returns on every string, and gives up on what has no layout. -/
theorem parseTx_total (raw : Bytes) :
    (∃ t dest, parseTx raw = .ok (some t) ∧ Layout raw dest t) ∨
      parseTx raw = .ok none ∧ ∀ t dest, ¬ Layout raw dest t := by
  by_cases hw : WellSized raw
  · exact Or.inl ⟨fieldsOf raw, _, parseTx_eq_some.mpr ⟨hw, rfl⟩, layout_fieldsOf hw⟩
  · refine Or.inr ⟨?_, fun t dest h => hw h.wellSized⟩
    rw [parseTx_eq, if_neg hw]

/-- What is hashed for a layout: everything but the signature. -/
theorem Layout.take_signed {raw dest : Bytes} {t : Tx} (h : Layout raw dest t) :
    raw.take (raw.length - signatureSize) = t.source ++ dest ++ ofI64 t.amount ++ ofU32 t.tick
      ++ ofU16 t.inputType ++ ofU16 (UInt16.ofNat t.input.length) ++ t.input := by
  have hlen : raw.length - signatureSize = txHeaderSize + t.input.length := by
    rw [h.length_raw, Nat.add_sub_cancel]
  rw [hlen, h.bytes]
  refine List.take_left' ?_
  simp only [List.length_append, h.source, h.destination, length_ofI64, length_ofU32,
    length_ofU16]

/-- **The signature check hashes everything but the signature**, and does not panic. -/
theorem Layout.txSignatureValid_eq (E : Externs) {raw dest : Bytes} {t : Tx}
    (h : Layout raw dest t) :
    txSignatureValid E raw t = .ok (E.fourqVerify ⟨t.source, h.source⟩ ⟨t.sig, h.sig⟩
      (E.qubicK12 (t.source ++ dest ++ ofI64 t.amount ++ ofU32 t.tick ++ ofU16 t.inputType
        ++ ofU16 (UInt16.ofNat t.input.length) ++ t.input))) := by
  have hsigned := slice_of_le (s := raw) (Nat.zero_le (raw.length - signatureSize)) (Nat.sub_le ..)
  rw [List.drop_zero, Nat.sub_zero, h.take_signed] at hsigned
  rw [txSignatureValid, hsigned, ok_bind]
  exact schnorrqVerify_val E ⟨t.source, h.source⟩ ⟨t.sig, h.sig⟩ _

end ZkQuorum.Guest
