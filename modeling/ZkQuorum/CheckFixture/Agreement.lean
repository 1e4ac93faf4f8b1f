import ZkQuorum.CheckFixture.Commits
import ZkQuorum.GenFixture.Series

/-!
# What the fixture checker accepts

`Passed` is what the checker asks of a fixture, and each of its steps is a field of it
(`packet_iff`, `query_iff`, `reveal_iff`, `commitLoop_counts`). The one check that differs from
the guest's is the query tick, which is compared with `queryId >> 31` cut to 32 bits: bit 63 of
the query id is not looked at.
-/

namespace ZkQuorum.CheckFixture

open LittleEndian Guest Host

theorem require_true (m : String) : require true m = .ok () := rfl

theorem require_eq_ok {c : Bool} {m : String} {u : Unit} : require c m = .ok u ↔ c = true := by
  cases c
  · exact ⟨fun h => (nomatch h), fun h => (nomatch h)⟩
  · exact ⟨fun _ => rfl, fun _ => rfl⟩

/-- The tick the checker asks for. -/
def tickOf (queryId : UInt64) : UInt32 := (queryId >>> 31).toUInt32

/-- What the checker asks of a fixture. -/
structure Passed (E : Externs) (fx : Fixture) : Prop where
  wellFormed : fx.WellFormed
  packetValid : PacketValid E fx.computorsPacket
  query : ∃ q, parseTx fx.queryTx = .ok (some q) ∧ q.inputType = queryInputType ∧
    q.destIsZero = true ∧ SignatureValid E fx.queryTx q ∧ q.tick = tickOf fx.queryId
  replyLength : 1 ≤ fx.reply.length ∧ fx.reply.length ≤ maxReply
  reveal : ∃ r, RevealValid E (pubkeysOf fx.computorsPacket) (bytesOfU64 fx.queryId) fx.reply
    fx.revealTx r
  /-- every commit is valid, and they are of distinct computors -/
  commits : (fixtureCommitters E fx (tickOf fx.queryId)).ncard = fx.commitTxs.length
  quorum : quorum ≤ fx.commitTxs.length

/-- What the checker reports about a fixture. -/
def reportOf (fx : Fixture) : Report where
  epoch := (epochOf fx.computorsPacket).toUInt32
  queryId := fx.queryId
  reply := fx.reply
  commits := fx.commitTxs.length

section Steps

variable {E : Externs}

theorem packet_iff {packet : Bytes} (hlen : packet.length = packetSize) :
    (verifyAt E E.arbitratorPubkey.val (packet.drop (packetSize - 64))
        (E.qubicK12 (packet.take (packetSize - 64))) = true ∧
      ((getU16 packet).toUInt32 != 0) = true ∧ noRepeatedPubkey packet = true) ↔
    PacketValid E packet := by
  have hsig : (packet.drop packetSignedSize).length = 64 := by
    rw [List.length_drop, hlen]
    decide
  let sig : ByteVec 64 := ⟨_, hsig⟩
  have hpk : E.arbitratorPubkey.val.take 32 = E.arbitratorPubkey.val :=
    List.take_of_length_le (Nat.le_of_eq E.arbitratorPubkey.property)
  have hs : (packet.drop (packetSize - 64)).take 64 = sig.val :=
    List.take_of_length_le (Nat.le_of_eq hsig)
  have hverify : verifyAt E E.arbitratorPubkey.val (packet.drop (packetSize - 64))
      (E.qubicK12 (packet.take (packetSize - 64)))
        = E.fourqVerify E.arbitratorPubkey sig (E.qubicK12 (packet.take packetSignedSize)) :=
    verifyAt_eq hpk hs _
  have hepoch : ((getU16 packet).toUInt32 != 0) = true ↔ epochOf packet ≠ 0 := by
    rw [getU16_eq (by rw [hlen]; decide), bne_iff_ne, ← epochOf, ne_eq, ne_eq,
      ← UInt32.toNat_inj, ← UInt16.toNat_inj]
    rfl
  -- each test of the checker is a field of `PacketValid`
  rw [hverify, hepoch, noRepeatedPubkey_iff]
  constructor
  · rintro ⟨hv, he, hd⟩
    exact { size := hlen, signed := ⟨sig, rfl, hv⟩, epoch := he, distinct := hd }
  · intro h
    obtain ⟨sig', hs, hv⟩ := h.signed
    rw [show sig = sig' from Subtype.ext hs.symm]
    exact ⟨hv, h.epoch, h.distinct⟩

theorem query_iff {queryTx : Bytes} {tick : UInt32} :
    (txOk E queryTx 10 0 false = true ∧ (getU32 (queryTx.drop 72) == tick) = true) ↔
      ∃ q, parseTx queryTx = .ok (some q) ∧ q.inputType = queryInputType ∧ q.destIsZero = true ∧
        SignatureValid E queryTx q ∧ q.tick = tick := by
  rw [txOk_iff, beq_iff_eq]
  constructor
  · rintro ⟨⟨q, hparse, htype, hdest, -, hsig⟩, htick⟩
    exact ⟨q, hparse, htype, hdest, hsig, (getU32_tick hparse).symm.trans htick⟩
  · rintro ⟨q, hparse, htype, hdest, hsig, htick⟩
    exact ⟨⟨q, hparse, htype, hdest, fun h => (nomatch h), hsig⟩, (getU32_tick hparse).trans htick⟩

/-- The length and byte comparisons of the reveal are one comparison of its input
with `queryId | reply`. -/
theorem revealInput_iff {raw reply : Bytes} {r : Tx} {queryId : UInt64}
    (h : parseTx raw = .ok (some r)) :
    (raw.length == txHeaderSize + 8 + reply.length + 64 && getU64 (raw.drop txHeaderSize) == queryId
      && ((raw.drop txHeaderSize).drop 8).take reply.length == reply) = true ↔
    r.input = ofU64 queryId ++ reply := by
  obtain ⟨hw, rfl⟩ := parseTx_eq_some.mp h
  have hlen := wellSized_iff.mp hw
  have hinput := length_input hw
  simp only [Bool.and_eq_true, beq_iff_eq, and_assoc]
  have hsplit : inputSizeField raw = 8 + reply.length →
      (fieldsOf raw).input = (raw.drop txHeaderSize).take 8
        ++ ((raw.drop txHeaderSize).drop 8).take reply.length ∧
      ((raw.drop txHeaderSize).take 8).length = 8 ∧
      getU64 (raw.drop txHeaderSize) = toU64 ((raw.drop txHeaderSize).take 8) := by
    intro hsize
    have h8 : 8 ≤ (raw.drop txHeaderSize).length := by
      rw [List.length_drop]
      simp only [txHeaderSize]
      omega
    refine ⟨?_, List.length_take_of_le h8, getU64_eq h8⟩
    show (raw.drop txHeaderSize).take (inputSizeField raw) = _
    rw [hsize, List.take_add]
  -- either side fixes the length of the input, and with it where the two parts are
  constructor
  · rintro ⟨hl, hid, hreply⟩
    simp only [txHeaderSize] at hl
    obtain ⟨hin, h8, hget⟩ := hsplit (by omega)
    rw [hin, hreply, ← hid, hget, ofU64_toU64 h8]
  · intro hin
    have hsize : inputSizeField raw = 8 + reply.length := by
      rw [← hinput, hin, List.length_append, length_ofU64]
    obtain ⟨hcut, h8, hget⟩ := hsplit hsize
    rw [hcut] at hin
    obtain ⟨hid, hreply⟩ := List.append_inj hin (by rw [h8, length_ofU64])
    refine ⟨?_, by rw [hget, hid, toU64_ofU64], hreply⟩
    simp only [txHeaderSize]
    omega

theorem reveal_iff {packet revealTx reply : Bytes} {queryId : UInt64}
    (hd : DistinctKeys (pubkeysOf packet)) :
    ((txOk E revealTx 7 0 true && (computorIndex packet revealTx).isSome) = true ∧
      (revealTx.length == txHeaderSize + 8 + reply.length + 64
        && getU64 (revealTx.drop txHeaderSize) == queryId
        && ((revealTx.drop txHeaderSize).drop 8).take reply.length == reply) = true) ↔
    ∃ r, RevealValid E (pubkeysOf packet) (bytesOfU64 queryId) reply revealTx r := by
  have hlisted : ∀ {r}, parseTx revealTx = .ok (some r) →
      ((computorIndex packet revealTx).isSome = true ↔
        ∃ i, ListedAt (pubkeysOf packet) i r.source) := by
    intro r hparse
    obtain ⟨-, rfl⟩ := parseTx_eq_some.mp hparse
    rw [Option.isSome_iff_exists]
    constructor
    · rintro ⟨i, hi⟩
      exact ⟨i, (computorIndex_eq_some hd).mp hi⟩
    · rintro ⟨i, hi⟩
      exact ⟨⟨i, hi.1⟩, (computorIndex_eq_some hd).mpr hi⟩
  rw [Bool.and_eq_true, txOk_iff]
  constructor
  · rintro ⟨⟨⟨r, hparse, htype, hdest, hamount, hsig⟩, hidx⟩, hinput⟩
    exact ⟨r, { parses := hparse, inputType := htype, destination := hdest, amount := hamount rfl,
                source := (hlisted hparse).mp hidx, signature := hsig,
                input := (revealInput_iff hparse).mp hinput }⟩
  · rintro ⟨r, h⟩
    exact ⟨⟨⟨r, h.parses, h.inputType, h.destination, fun _ => h.amount, h.signature⟩,
      (hlisted h.parses).mpr h.source⟩, (revealInput_iff h.parses).mpr h.input⟩

end Steps

/-! ## The count -/

section Count

variable {E : Externs} {packet : Bytes} {queryId : UInt64} {queryTick : UInt32} {reply : Bytes}

/-- The computor a commit counts for when none was seen. -/
def vote (E : Externs) (packet : Bytes) (queryId : UInt64) (queryTick : UInt32)
    (reply raw : Bytes) :
    Option (Fin numberOfComputors) :=
  commitIndex E packet queryId queryTick reply (Vector.replicate _ false) raw

theorem vote_eq_some (hd : DistinctKeys (pubkeysOf packet)) {raw : Bytes}
    {i : Fin numberOfComputors} :
    vote E packet queryId queryTick reply raw = some i ↔
      ValidCommit E (pubkeysOf packet) (bytesOfU64 queryId) queryTick reply raw i := by
  rw [vote, commitIndex_eq_some hd]
  refine ⟨And.left, fun h => ⟨h, ?_⟩⟩
  show (Vector.replicate numberOfComputors false)[i.val] = false
  rw [Vector.getElem_replicate]

theorem counts (E : Externs) (queryId : UInt64) (queryTick : UInt32) (reply : Bytes)
    (hd : DistinctKeys (pubkeysOf packet)) :
    Counts (commitIndex E packet queryId queryTick reply)
      (vote E packet queryId queryTick reply) := by
  intro seen raw i
  rw [commitIndex_eq_some hd, vote_eq_some hd]

variable (E queryId queryTick reply)

/-- The voters are the committers. -/
theorem card_voters (hd : DistinctKeys (pubkeysOf packet)) (txs : List Bytes) :
    (Tally.voters (vote E packet queryId queryTick reply) txs).card
      = (committers E (pubkeysOf packet) (bytesOfU64 queryId) queryTick reply txs).ncard := by
  have himage : committers E (pubkeysOf packet) (bytesOfU64 queryId) queryTick reply txs
      = Fin.val '' {i | ∃ raw ∈ txs, vote E packet queryId queryTick reply raw = some i} := by
    ext i
    constructor
    · rintro ⟨raw, hraw, hvalid⟩
      exact ⟨⟨i, hvalid.lt⟩, ⟨raw, hraw, (vote_eq_some hd).mpr hvalid⟩, rfl⟩
    · rintro ⟨k, ⟨raw, hraw, hvote⟩, rfl⟩
      exact ⟨raw, hraw, (vote_eq_some hd).mp hvote⟩
  rw [Tally.card_voters, himage, Set.ncard_image_of_injective _ Fin.val_injective]

theorem card_voters_le (packet : Bytes) (txs : List Bytes) :
    (Tally.voters (vote E packet queryId queryTick reply) txs).card ≤ numberOfComputors := by
  have := Finset.card_le_univ (Tally.voters (vote E packet queryId queryTick reply) txs)
  rwa [Fintype.card_fin] at this

/-- There are no more committers than transactions. -/
theorem ncard_le_length (hd : DistinctKeys (pubkeysOf packet)) (txs : List Bytes) :
    (committers E (pubkeysOf packet) (bytesOfU64 queryId) queryTick reply txs).ncard
      ≤ txs.length := by
  rw [← card_voters E queryId queryTick reply hd]
  exact Nat.le_trans (List.toFinset_card_le _) (List.length_filterMap_le _ _)

/-- What the loop counts is the number of committers. -/
theorem length_collect (hd : DistinctKeys (pubkeysOf packet)) (txs : List Bytes) :
    (Tally.collect (vote E packet queryId queryTick reply) never txs []).length
      = (committers E (pubkeysOf packet) (bytesOfU64 queryId) queryTick reply txs).ncard := by
  have hle := card_voters_le E queryId queryTick reply packet txs
  rw [Tally.length_collect txs [] List.nodup_nil (by decide), List.toFinset_nil,
    Finset.empty_union, Nat.min_eq_right (Nat.le_succ_of_le hle),
    card_voters E queryId queryTick reply hd]

/-- **The loop counts the committers** of the transactions it reads. -/
theorem commitLoop_counts (hd : DistinctKeys (pubkeysOf packet)) {buf rest : Bytes}
    (hmax : buf.length ≤ Rust.isizeMax) {txs : List Bytes}
    (htxs : ∀ tx ∈ txs, tx.length < 2 ^ 32) {pos : Nat}
    (h : At buf pos (txs.flatMap Host.blob ++ rest)) :
    ∃ pos', commitLoop (commitIndex E packet queryId queryTick reply) buf txs.length pos
        (Vector.replicate _ false) 0
      = .ok (pos',
        (committers E (pubkeysOf packet) (bytesOfU64 queryId) queryTick reply txs).ncard) ∧
      At buf pos' rest := by
  -- from the empty list: no computor is marked as seen
  obtain ⟨pos', hrun, hat⟩ := commitLoop_at (counts E queryId queryTick reply hd) hmax htxs h
    List.nodup_nil fun i => Vector.getElem_replicate i.isLt
  rw [length_collect E queryId queryTick reply hd, List.length_nil] at hrun
  exact ⟨pos', hrun, hat⟩

/-- A list with as many committers as transactions consists of valid commits, and
is no longer than the computor list. -/
theorem all_valid_of_ncard (hd : DistinctKeys (pubkeysOf packet)) {txs : List Bytes}
    (h : (committers E (pubkeysOf packet) (bytesOfU64 queryId) queryTick reply txs).ncard
      = txs.length) :
    txs.length ≤ numberOfComputors ∧ ∀ raw ∈ txs,
      ∃ i, ValidCommit E (pubkeysOf packet) (bytesOfU64 queryId) queryTick reply raw i := by
  have hcard := (card_voters E queryId queryTick reply hd txs).trans h
  refine ⟨hcard ▸ card_voters_le E queryId queryTick reply packet txs, fun raw hraw => ?_⟩
  obtain ⟨i, hi⟩ := Tally.all_vote_of_card hcard raw hraw
  exact ⟨i, (vote_eq_some hd).mp hi⟩

end Count

end ZkQuorum.CheckFixture
