import ZkQuorum.Guest.Commits

/-!
# What each step of the guest checks

One predicate for each of steps 1 to 3 of the guest statement (SPEC), and one
lemma for each function of `main` that checks it: the function returns exactly
when the predicate holds. The predicates speak of the transactions, the list and
the two extern functions only, not of the guest's sorted index, flags or
offsets.
-/

namespace ZkQuorum.Guest

open LittleEndian Rust

/-! ## Step 1: the computor list -/

/-- The 676 keys of a packet. -/
def pubkeysOf (packet : Bytes) : Bytes := (packet.drop 2).take (numberOfComputors * 32)

/-- The epoch of a packet. -/
def epochOf (packet : Bytes) : UInt16 := toU16 (packet.take 2)

/-- The list is signed by the arbitrator, for an epoch other than 0, and repeats
no key. -/
structure PacketValid (E : Externs) (packet : Bytes) : Prop where
  size : packet.length = packetSize
  signed : ∃ sig : ByteVec 64, sig.val = packet.drop packetSignedSize ∧
    E.fourqVerify E.arbitratorPubkey sig (E.qubicK12 (packet.take packetSignedSize)) = true
  epoch : epochOf packet ≠ 0
  distinct : DistinctKeys (pubkeysOf packet)

theorem checkPacket_slices {packet : Bytes} (h : packet.length = packetSize) :
    slice packet 0 packetSignedSize = .ok (packet.take packetSignedSize) ∧
      slice packet packetSignedSize packet.length = .ok (packet.drop packetSignedSize) ∧
      slice packet 0 2 = .ok (packet.take 2) ∧
      slice packet 2 packetSignedSize = .ok (pubkeysOf packet) := by
  have hs : packetSignedSize ≤ packet.length := by rw [h]; decide
  refine ⟨slice_of_le (Nat.zero_le _) hs, ?_, slice_of_le (by decide) ?_,
    slice_of_le (by decide) hs⟩
  · rw [slice_of_le hs (Nat.le_refl _), List.take_of_length_le (by rw [List.length_drop])]
  · rw [h]
    decide

/-- Step 1 returns exactly on valid packets, with the epoch, the keys and a
strictly sorted index of them. -/
theorem checkPacket_eq_ok {E : Externs} {packet : Bytes} (hlen : packet.length = packetSize)
    {epoch : UInt16} {pubkeys : Bytes} {sorted : List UInt16}
    (h : checkPacket E packet = .ok (epoch, pubkeys, sorted)) :
    PacketValid E packet ∧ epoch = epochOf packet ∧ pubkeys = pubkeysOf packet ∧
      SortedIndex pubkeys sorted := by
  obtain ⟨hs1, hs2, hs3, hs4⟩ := checkPacket_slices hlen
  simp only [checkPacket, hs1, hs2, hs3, hs4, ok_bind, bind_eq_ok, assert_eq_ok, pure_eq_ok,
    exists_const, Except.ok.injEq, Prod.mk.injEq] at h
  obtain ⟨_, hv, rfl, hepoch, sorted, hrej, rfl, rfl, rfl⟩ := h
  have hsorted := sortedIndex_of_ok hrej
  have hsig : (packet.drop packetSignedSize).length = 64 := by
    rw [List.length_drop, hlen]
    decide
  rw [← (show (⟨_, hsig⟩ : ByteVec 64).val = packet.drop packetSignedSize from rfl),
    schnorrqVerify_val, Except.ok.injEq] at hv
  exact ⟨{ size := hlen, signed := ⟨⟨_, hsig⟩, rfl, hv⟩, epoch := bne_iff_ne.mp hepoch,
           distinct := hsorted.distinctKeys }, rfl, rfl, hsorted⟩

theorem checkPacket_complete {E : Externs} {packet : Bytes} (h : PacketValid E packet) :
    ∃ sorted, SortedIndex (pubkeysOf packet) sorted ∧
      checkPacket E packet = .ok (epochOf packet, pubkeysOf packet, sorted) := by
  obtain ⟨hs1, hs2, hs3, hs4⟩ := checkPacket_slices h.size
  obtain ⟨sig, hsig, hv⟩ := h.signed
  obtain ⟨sorted, hrej⟩ := rejectDuplicatePubkeys_of_distinct E h.distinct
  have hepoch : (toU16 (packet.take 2) != 0) = true := bne_iff_ne.mpr h.epoch
  have hv' : schnorrqVerify E E.arbitratorPubkey.val sig.val
      (k12 E (packet.take packetSignedSize)) = .ok true := by
    rw [schnorrqVerify_val]
    exact congrArg _ hv
  refine ⟨sorted, sortedIndex_of_ok hrej, ?_⟩
  rw [checkPacket, hs1, ok_bind, hs2, ok_bind, ← hsig, hv', ok_bind, assert_true, ok_bind, hs3,
    ok_bind]
  simp only [hepoch, assert_true, ok_bind, hs4, hrej]
  rfl

/-! ## Step 2: the query -/

/-- The query transaction: type 10, destination zero, signed by its source, and
at the tick of the query id. The tick is compared with all 33 bits of
`queryId >> 31`. -/
structure QueryValid (E : Externs) (queryTx : Bytes) (queryId : ByteVec 8) (q : Tx) : Prop where
  parses : parseTx queryTx = .ok (some q)
  inputType : q.inputType = queryInputType
  destination : q.destIsZero = true
  signature : SignatureValid E queryTx q
  tick : q.tick.toNat = toNat queryId.val / 2 ^ 31

theorem txSignatureValid_eq_true {E : Externs} {raw : Bytes} {tx : Tx}
    (h : parseTx raw = .ok (some tx)) :
    txSignatureValid E raw tx = .ok true ↔ SignatureValid E raw tx := by
  obtain ⟨b, hb, hiff⟩ := txSignatureValid_eq E h
  rw [hb, Except.ok.injEq, hiff]

/-- The comparison of the tick with `queryId >> 31` is one of numbers. -/
theorem tick_eq_iff (t : UInt32) (queryId : ByteVec 8) :
    t.toUInt64 = toU64 queryId.val >>> 31 ↔ t.toNat = toNat queryId.val / 2 ^ 31 := by
  rw [← UInt64.toNat_inj, UInt64.toNat_shiftRight, toNat_toU64 queryId.property,
    UInt32.toNat_toUInt64, Nat.shiftRight_eq_div_pow]
  rfl

/-- Step 2 returns the tick of a valid query. -/
theorem checkQuery_eq_ok {E : Externs} {queryTx : Bytes} {queryId : ByteVec 8} {tick : UInt32} :
    checkQuery E queryTx (toU64 queryId.val) = .ok tick ↔
      ∃ q, QueryValid E queryTx queryId q ∧ q.tick = tick := by
  simp only [checkQuery, bind_eq_ok, assert_eq_ok, expect_eq_ok, pure_eq_ok, exists_const,
    Except.ok.injEq, beq_iff_eq, tick_eq_iff]
  constructor
  · rintro ⟨_, hparse, q, rfl, htype, hdest, _, hsig, rfl, htick, hq⟩
    exact ⟨q, { parses := hparse, inputType := htype, destination := hdest,
                signature := (txSignatureValid_eq_true hparse).mp hsig, tick := htick }, hq⟩
  · rintro ⟨q, h, hq⟩
    exact ⟨_, h.parses, q, rfl, h.inputType, h.destination, true,
      (txSignatureValid_eq_true h.parses).mpr h.signature, rfl, h.tick, hq⟩

/-! ## Step 3: the reveal -/

/-- The reveal transaction: type 7, destination zero, amount 0, signed by its
source, a listed computor, and its input is `queryId | reply`. -/
structure RevealValid (E : Externs) (pubkeys : Bytes) (queryId : ByteVec 8)
    (reply revealTx : Bytes) (r : Tx) : Prop where
  parses : parseTx revealTx = .ok (some r)
  inputType : r.inputType = revealInputType
  destination : r.destIsZero = true
  amount : r.amount = 0
  source : ∃ i, ListedAt pubkeys i r.source
  signature : SignatureValid E revealTx r
  input : r.input = queryId.val ++ reply

/-- The input of a parsed transaction has a `u16` length. -/
theorem length_input_lt {raw : Bytes} {tx : Tx} (h : parseTx raw = .ok (some tx)) :
    tx.input.length < 2 ^ 16 := by
  obtain ⟨hw, rfl⟩ := parseTx_eq_some.mp h
  rw [length_input hw]
  exact UInt16.toNat_lt _

/-- The input check accepts `queryId | reply` and nothing else, although it
compares lengths modulo `2 ^ 32`. -/
theorem revealInputMatches_eq_true {queryId : ByteVec 8} {reply input : Bytes}
    (hlt : input.length < 2 ^ 16) :
    revealInputMatches queryId reply input = .ok true ↔ input = queryId.val ++ reply := by
  have hq := queryId.property
  constructor
  · intro h
    rw [revealInputMatches] at h
    split at h
    · cases h
    · obtain ⟨a, ha, h⟩ := bind_eq_ok.mp h
      obtain ⟨-, h8, rfl⟩ := slice_eq_ok.mp ha
      rw [slice_of_le h8 (Nat.le_refl _)] at h
      split at h
      · cases h
      · rename_i hid
        rw [ok_bind, pure_eq_ok, Except.ok.injEq, beq_iff_eq,
          List.take_of_length_le (by rw [List.length_drop])] at h
        have hid' : input.take 8 = queryId.val := not_not.mp hid
        rw [← h, ← hid', List.take_append_drop]
  -- the expected length does not wrap, since the input has it
  · rintro rfl
    rw [List.length_append, hq] at hlt
    have hlen : (queryId.val ++ reply).length = wrap (8 + reply.length) := by
      rw [List.length_append, hq, wrap_of_lt (by omega)]
    rw [revealInputMatches, if_neg (not_not.mpr hlen),
      slice_of_le (by decide) (by rw [List.length_append]; omega), ok_bind, List.drop_zero,
      List.take_left' hq, if_neg (not_not.mpr rfl),
      slice_of_le (by rw [List.length_append]; omega) (Nat.le_refl _), ok_bind,
      List.drop_left' hq, List.take_of_length_le (by rw [List.length_append]; omega)]
    simp

/-- Step 3 returns exactly on valid reveals. -/
theorem checkReveal_eq_ok {E : Externs} {pubkeys : Bytes} {sorted : List UInt16}
    (hs : SortedIndex pubkeys sorted) {queryId : ByteVec 8} {reply revealTx : Bytes} {u : Unit} :
    checkReveal E pubkeys sorted queryId reply revealTx = .ok u ↔
      ∃ r, RevealValid E pubkeys queryId reply revealTx r := by
  simp only [checkReveal, bind_eq_ok, assert_eq_ok, expect_eq_ok, exists_const, beq_iff_eq,
    Option.isSome_iff_exists, findComputor_eq_some hs]
  constructor
  · rintro ⟨_, hparse, r, rfl, htype, hdest, hamount, hsource, _, hsig, rfl, _, hin, rfl⟩
    exact ⟨r, { parses := hparse, inputType := htype, destination := hdest, amount := hamount,
                source := hsource, signature := (txSignatureValid_eq_true hparse).mp hsig,
                input := (revealInputMatches_eq_true (length_input_lt hparse)).mp hin }⟩
  · rintro ⟨r, h⟩
    exact ⟨_, h.parses, r, rfl, h.inputType, h.destination, h.amount, h.source, true,
      (txSignatureValid_eq_true h.parses).mpr h.signature, rfl, true,
      (revealInputMatches_eq_true (length_input_lt h.parses)).mpr h.input, rfl⟩

/-! ## The journal -/

/-- `epoch u32 | queryId u64 | K12(reply)`. -/
def journalOf (epoch : UInt16) (queryId : ByteVec 8) (replyDigest : ByteVec 32) : Bytes :=
  ofU32 epoch.toUInt32 ++ queryId.val ++ replyDigest.val

/-- The three copies of `main` lay the parts out one after the other. -/
theorem buildJournal_eq (epoch : UInt16) (queryId : ByteVec 8) (replyDigest : ByteVec 32) :
    buildJournal epoch queryId replyDigest = .ok (journalOf epoch queryId replyDigest) := by
  have he := length_ofU32 epoch.toUInt32
  have hq := queryId.property
  have hd := replyDigest.property
  have h4 : (List.replicate 4 (0 : UInt8)).length = 4 - 0 := List.length_replicate
  have h8 : (List.replicate 8 (0 : UInt8)).length = 12 - 4 := List.length_replicate
  have h32 : (List.replicate 32 (0 : UInt8)).length = journalSize - 12 := List.length_replicate
  have hsplit : List.replicate journalSize (0 : UInt8)
      = [] ++ List.replicate 4 0 ++ (List.replicate 8 0 ++ List.replicate 32 0) := rfl
  rw [buildJournal, hsplit, copyFromSlice_append (by decide) List.length_nil h4 he, ok_bind,
    List.nil_append, ← List.append_assoc, copyFromSlice_append (by decide) he h8 hq, ok_bind,
    ← List.append_nil (_ ++ List.replicate 32 0),
    copyFromSlice_append (by decide) (by rw [List.length_append, he, hq]) h32 hd, List.append_nil]
  rfl

end ZkQuorum.Guest
