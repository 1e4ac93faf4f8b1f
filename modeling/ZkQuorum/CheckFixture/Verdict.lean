import ZkQuorum.CheckFixture.Agreement

/-!
# The checker and the guest

A file that reaches "fixture OK" is a fixture that parses, and the guest accepts
it with the journal the checker read, unless bit 63 of the query id is set: the
guest compares the query tick with all 33 bits of `queryId >> 31`, the checker
with the low 32.
-/

namespace ZkQuorum.CheckFixture

open LittleEndian Guest Host

section Main

variable {E : Externs} {buf : Rust.Buffer}

/-- A fixture that passes the checks is accepted. -/
theorem main_of_passed {fx : Fixture} (h : Passed E fx) (hbuf : buf.val = layout fx) :
    main E E.arbitratorPubkey buf.val = .ok (reportOf fx) := by
  have hmax := buf.property
  have hw := h.wellFormed
  have hd := h.packetValid.distinct
  have hcount : (getU32 (ofU32 (UInt32.ofNat fx.commitTxs.length))).toNat
      = fx.commitTxs.length := by
    rw [getU32_of_length (length_ofU32 _), toU32_ofU32, UInt32.toNat_ofNat',
      Nat.mod_eq_of_lt hw.count]
  have hqid : getU64 (ofU64 fx.queryId) = fx.queryId := by
    rw [getU64_of_length (length_ofU64 _), toU64_ofU64]
  have hepoch : (getU16 fx.computorsPacket).toUInt32 = (epochOf fx.computorsPacket).toUInt32 := by
    rw [getU16_eq (by rw [hw.packet]; decide), ← epochOf]
  obtain ⟨hsig, hepochNe, hdistinct⟩ := (packet_iff hw.packet).mpr h.packetValid
  rw [hepoch] at hepochNe
  obtain ⟨hquery, htick⟩ := query_iff.mpr h.query
  obtain ⟨hreveal, hinput⟩ := (reveal_iff hd).mpr h.reveal
  have hreply : (decide (1 ≤ fx.reply.length) && decide (fx.reply.length ≤ maxReply)) = true := by
    rw [decide_eq_true h.replyLength.1, decide_eq_true h.replyLength.2, Bool.and_true]
  -- the reads, one after the other
  have h0 : At buf.val 0 _ := ⟨Nat.zero_le _, (List.drop_zero.trans hbuf).trans (layout_eq fx)⟩
  obtain ⟨r1, h1⟩ := take_at (n := 8) hmax h0 rfl "magic"
  obtain ⟨r2, h2⟩ := take_at hmax h1 hw.packet "packet"
  obtain ⟨r3, h3⟩ := take_at hmax h2 (length_ofU64 fx.queryId) "queryId"
  obtain ⟨pos4, r4, h4⟩ := blob_at hmax hw.queryTx h3 "queryTx"
  obtain ⟨pos5, r5, h5⟩ := blob_at hmax hw.reply h4 "reply"
  obtain ⟨r6, h6⟩ := take_at hmax h5 (length_ofU32 _) "n"
  obtain ⟨pos7, r7, h7⟩ := commitLoop_counts E fx.queryId (tickOf fx.queryId) fx.reply hd hmax
    hw.commitTxs h6
  obtain ⟨pos8, r8, h8⟩ := blob_at hmax hw.revealTx h7 "revealTx"
  have hend : pos8 = buf.val.length := Nat.le_antisymm h8.le (List.drop_eq_nil_iff.mp h8.drop)
  have hcounted : (committers E (pubkeysOf fx.computorsPacket) (bytesOfU64 fx.queryId)
      (tickOf fx.queryId) fx.reply fx.commitTxs).ncard = fx.commitTxs.length := h.commits
  rw [hcounted] at r7
  have htickOf := beq_iff_eq.mp htick
  have hself : (tickOf fx.queryId == (fx.queryId >>> 31).toUInt32) = true := beq_self_eq_true _
  have hquorum : decide (quorum ≤ fx.commitTxs.length) = true := decide_eq_true h.quorum
  rw [main, r1, Rust.ok_bind]
  simp only [beq_self_eq_true, require_true, Rust.ok_bind]
  rw [r2, Rust.ok_bind]
  simp only [hsig, hepoch, hepochNe, hdistinct, require_true, Rust.ok_bind, r3, hqid, r4, hquery,
    htickOf, hself, r5, hreply, r6, hcount, r7, r8, hreveal, hinput, hend, beq_self_eq_true,
    hquorum]
  rfl

/-- A file that is accepted is the layout of a fixture that passes the checks. -/
theorem passed_of_main {report : Report} (h : main E E.arbitratorPubkey buf.val = .ok report) :
    ∃ fx, buf.val = layout fx ∧ Passed E fx ∧ report = reportOf fx := by
  have hmax := buf.property
  simp only [main, Rust.bind_eq_ok, require_eq_ok, exists_const, beq_iff_eq, Rust.pure_eq_ok,
    Except.ok.injEq, decide_eq_true_eq] at h
  obtain ⟨⟨m, pos1⟩, r1, rfl, ⟨packet, pos2⟩, r2, hsig, hepochNe, hdistinct, ⟨qid, pos3⟩, r3,
    ⟨queryTx, pos4⟩, r4, hquery, htick, ⟨reply, pos5⟩, r5, hreply, ⟨nb, pos6⟩, r6,
    ⟨pos7, counted⟩, r7, ⟨revealTx, pos8⟩, r8, hreveal, hinput, hend, hcounted, hquorum, rfl⟩ := h
  dsimp only at *
  obtain ⟨h0, -, hp1⟩ := take_sound hmax (Nat.zero_le _) (by decide) r1
  obtain ⟨h1, hpacketLen, hp2⟩ := take_sound hmax hp1 (by decide) r2
  obtain ⟨h2, hqidLen, hp3⟩ := take_sound hmax hp2 (by decide) r3
  obtain ⟨hqueryLt, h3, hp4⟩ := blob_sound hmax hp3 r4
  obtain ⟨hreplyLt, h4, hp5⟩ := blob_sound hmax hp4 r5
  obtain ⟨h5, hnbLen, hp6⟩ := take_sound hmax hp5 (by decide) r6
  obtain ⟨txs, hcount, htxsLt, h6, hp7⟩ := commitLoop_sound hmax hp6 r7
  obtain ⟨hrevealLt, h7, hp8⟩ := blob_sound hmax hp7 r8
  have hqid : getU64 qid = toU64 qid := getU64_of_length hqidLen
  have hnb : ofU32 (UInt32.ofNat txs.length) = nb := by
    rw [hcount, UInt32.ofNat_toNat, getU32_of_length hnbLen, ofU32_toU32 hnbLen]
  let fx : Fixture :=
    { computorsPacket := packet, queryId := toU64 qid, queryTx, reply, commitTxs := txs, revealTx }
  have hw : fx.WellFormed :=
    { packet := hpacketLen, queryTx := hqueryLt, reply := hreplyLt,
      count := hcount ▸ (getU32 nb).toNat_lt, commitTxs := htxsLt, revealTx := hrevealLt }
  have hlayout : buf.val = layout fx := by
    have hall := h0.drop
    rw [List.drop_zero, h1.drop, h2.drop, h3.drop, h4.drop, h5.drop, h6.drop, h7.drop, hend,
      List.drop_length] at hall
    rw [layout_eq, hall]
    simp only [fx, hnb, ofU64_toU64 hqidLen]
  rw [hqid] at htick hinput
  have hvalid : PacketValid E packet :=
    (packet_iff hpacketLen).mp ⟨hsig, hepochNe, hdistinct⟩
  have hcommitters : (fixtureCommitters E fx (tickOf fx.queryId)).ncard = fx.commitTxs.length := by
    -- the loop ran on these transactions, and the number it counted was compared with theirs
    obtain ⟨pos', hrun, -⟩ := commitLoop_counts E fx.queryId (tickOf fx.queryId) reply
      hvalid.distinct hmax htxsLt h6
    rw [hqid, htick, ← hcount] at r7
    have hpair := Except.ok.inj (hrun.symm.trans r7)
    rw [Prod.mk.injEq] at hpair
    exact hpair.2.trans (hcounted.trans hcount.symm)
  refine ⟨fx, hlayout, ?_, ?_⟩
  · exact { wellFormed := hw
            packetValid := hvalid
            query := query_iff.mp ⟨hquery, beq_iff_eq.mpr htick⟩
            replyLength := by simpa using hreply
            reveal := (reveal_iff hvalid.distinct).mp ⟨hreveal, hinput⟩
            commits := hcommitters
            quorum := by
              rw [hcounted, ← hcount] at hquorum
              exact hquorum }
  · rw [reportOf, hqid, ← hcount, getU16_eq (by rw [hpacketLen]; decide), ← epochOf]

end Main

/-! ## Against the guest -/

/-- The query id of a file, at its offset. -/
def queryIdField (buf : Bytes) : UInt64 := toU64 ((buf.drop (8 + packetSize)).take 8)

theorem queryIdField_layout {fx : Fixture} (h : fx.computorsPacket.length = packetSize) :
    queryIdField (layout fx) = fx.queryId := by
  have hcut : ((layout fx).drop (8 + packetSize)).take 8 = ofU64 fx.queryId := by
    rw [layout_eq, ← List.append_assoc, ← List.append_assoc]
    exact take_drop_middle (by rw [List.length_append, h]; rfl) (length_ofU64 _)
  rw [queryIdField, hcut, toU64_ofU64]

/-- The two tick checks agree exactly below bit 63. -/
theorem tickOf_toNat (queryId : UInt64) :
    (tickOf queryId).toNat = queryId.toNat / 2 ^ 31 ↔ queryId.toNat < 2 ^ 63 := by
  have hlt := queryId.toNat_lt
  rw [tickOf, UInt64.toNat_toUInt32, UInt64.toNat_shiftRight, Nat.shiftRight_eq_div_pow,
    show (31 : UInt64).toNat % 64 = 31 from rfl]
  omega

/-- The guest has room for the commits frame of a fixture that passes. -/
theorem length_commitsFrame_of_passed {E : Externs} {fx : Fixture} (h : Passed E fx) :
    (commitsFrame fx).length < 2 ^ 31 := by
  obtain ⟨hcount, hvalid⟩ := all_valid_of_ncard E fx.queryId (tickOf fx.queryId) fx.reply
    h.packetValid.distinct h.commits
  have hle : ∀ tx ∈ fx.commitTxs, tx.length ≤ 144 + 65535 := by
    intro tx htx
    obtain ⟨i, t, ht⟩ := hvalid tx htx
    have hlen := wellSized_iff.mp (parseTx_eq_some.mp ht.parses).1
    have hsize : inputSizeField tx < 65536 := UInt16.toNat_lt _
    omega
  have hframe : (commitsFrame fx).length = 4 + (Records.encodeAll fx.commitTxs).length := by
    rw [commitsFrame, List.length_append, length_ofU32]
    rfl
  have hrecords := Records.length_encodeAll_le hle
  simp only [numberOfComputors] at hcount
  omega

/-- A fixture that passes is accepted by the guest iff bit 63 of its query id is
clear. -/
theorem guest_accepts_iff {E : Externs} {fx : Fixture} (h : Passed E fx) (journal : Bytes) :
    Guest.main E (toEnv fx) = .ok journal ↔
      fx.queryId.toNat < 2 ^ 63 ∧
        journal = journalOf (epochOf fx.computorsPacket) (bytesOfU64 fx.queryId)
          (E.qubicK12 fx.reply) := by
  obtain ⟨q, hparse, htype, hdest, hsig, htick⟩ := h.query
  obtain ⟨r, hr⟩ := h.reveal
  constructor
  · intro hmain
    obtain ⟨queryId, hid, q', r', hsteps⟩ := steps_of_main hmain
    obtain rfl : queryId = bytesOfU64 fx.queryId := Subtype.ext hid
    -- a 32-bit tick that is equal to all 33 bits of `queryId >> 31`
    have hlow : fx.queryId.toNat < 2 ^ 63 := by
      have ht := hsteps.queryValid.tick
      have hlt := q'.tick.toNat_lt
      rw [bytesOfU64, toNat_ofU64] at ht
      omega
    refine ⟨hlow, ?_⟩
    have hfx : FixtureSteps E fx q' r' := hsteps
    rw [main_toEnv_of_steps hfx (length_commitsFrame_of_passed h)] at hmain
    split at hmain
    · exact (Except.ok.inj hmain).symm
    · cases hmain
  · rintro ⟨hlow, rfl⟩
    have hfx : FixtureSteps E fx q r :=
      { packetValid := h.packetValid
        queryValid := { parses := hparse, inputType := htype, destination := hdest,
                        signature := hsig,
                        tick := by
                          rw [htick, (tickOf_toNat fx.queryId).mpr hlow, bytesOfU64, toNat_ofU64] }
        revealValid := hr }
    rw [main_toEnv_of_steps hfx (length_commitsFrame_of_passed h), if_pos]
    rw [htick, h.commits]
    exact h.quorum

/-- **A file the checker accepts is accepted by the guest, with the journal the
checker read, iff bit 63 of its query id is clear.** -/
theorem checked_iff (E : Externs) (buf : Rust.Buffer) (report : Report)
    (h : main E E.arbitratorPubkey buf.val = .ok report) :
    (∃ fx, Host.parse buf = pure fx ∧ Guest.main E (toEnv fx)
      = .ok (ofU32 report.epoch ++ ofU64 report.queryId ++ (E.qubicK12 report.reply).val)) ↔
    (queryIdField buf.val).toNat < 2 ^ 63 := by
  obtain ⟨fx, hlayout, hpassed, rfl⟩ := passed_of_main h
  have hparse := parse_layout hpassed.wellFormed hlayout
  have hfield : queryIdField buf.val = fx.queryId := by
    rw [hlayout, queryIdField_layout hpassed.wellFormed.packet]
  rw [hfield]
  constructor
  · rintro ⟨fx', hparse', hmain⟩
    obtain rfl := Fallible.pure_inj.mp (hparse.symm.trans hparse')
    exact ((guest_accepts_iff hpassed _).mp hmain).1
  · intro hlow
    exact ⟨fx, hparse, (guest_accepts_iff hpassed _).mpr ⟨hlow, rfl⟩⟩

/-! ## Honest series -/

open GenFixture

section Honest

variable {E : Externs} {s : Series} {committing : List (Fin numberOfComputors)}

theorem length_le_of_nodup (h : committing.Nodup) : committing.length ≤ numberOfComputors := by
  have := h.length_le_card
  rwa [Fintype.card_fin] at this

theorem wellFormed_of_honest (h : s.Honest E) (hnodup : committing.Nodup) :
    (s.fixture E committing).WellFormed := by
  have hmessage := h.message
  have hcount := length_le_of_nodup hnodup
  refine { packet := Series.length_packet, queryTx := ?_, reply := ?_, count := ?_,
           commitTxs := ?_, revealTx := ?_ }
  · rw [Series.fixture, Series.length_queryTx]
    simp only [txHeaderSize]
    omega
  · show s.message.length < 2 ^ 32
    omega
  · rw [Series.fixture, List.length_map]
    simp only [numberOfComputors] at hcount
    omega
  · intro tx htx
    obtain ⟨i, -, rfl⟩ := List.mem_map.mp htx
    rw [Series.length_commitTx]
    decide
  · rw [Series.fixture, Series.length_revealTx]
    simp only [txHeaderSize]
    omega

/-- The file of an honest series. -/
theorem length_layout_of_honest (h : s.Honest E) (hnodup : committing.Nodup) :
    (layout (s.fixture E committing)).length ≤ Rust.isizeMax := by
  have hmessage := h.message
  have hcount := length_le_of_nodup hnodup
  have hle : ∀ tx ∈ (s.fixture E committing).commitTxs, tx.length ≤ 216 := by
    intro tx htx
    obtain ⟨i, -, rfl⟩ := List.mem_map.mp htx
    exact Nat.le_of_eq (Series.length_commitTx i)
  have hrecords : ((s.fixture E committing).commitTxs.flatMap Host.blob).length
      ≤ (s.fixture E committing).commitTxs.length * (4 + 216) := Records.length_encodeAll_le hle
  have htxs : (s.fixture E committing).commitTxs.length = committing.length := List.length_map _
  have hpacket : (s.fixture E committing).computorsPacket.length = packetSize :=
    Series.length_packet
  have hquery : (s.fixture E committing).queryTx.length = _ := Series.length_queryTx
  have hreveal : (s.fixture E committing).revealTx.length = _ := Series.length_revealTx
  have hreply : (s.fixture E committing).reply.length = s.message.length := rfl
  rw [htxs] at hrecords
  rw [length_layout, hpacket, hquery, hreveal, hreply]
  simp only [packetSize, numberOfComputors, signatureSize, txHeaderSize, Rust.isizeMax] at hcount ⊢
  omega

/-- An honest series passes the checks, whatever bit 63 of its query id is. -/
theorem passed_of_honest (h : s.Honest E) (htick : s.queryTick = tickOf s.queryId)
    (hreply : 1 ≤ s.message.length ∧ s.message.length ≤ maxReply) (hnodup : committing.Nodup)
    (hquorum : quorum ≤ committing.length) : Passed E (s.fixture E committing) := by
  obtain ⟨q, hparse, htype, hdest, hsig, hq⟩ := Series.query_of_honest h
  have hpacket := Series.packetValid_of_honest h
  have hlen : (s.fixture E committing).commitTxs.length = committing.length := List.length_map _
  refine { wellFormed := wellFormed_of_honest h hnodup
           packetValid := hpacket
           query := ⟨q, hparse, htype, hdest, hsig, hq.trans htick⟩
           replyLength := hreply
           reveal := Series.revealValid_of_honest h
           commits := Nat.le_antisymm ?_ ?_
           quorum := by rw [hlen]; exact hquorum }
  · exact ncard_le_length E _ _ _ hpacket.distinct _
  · have hcard := Series.card_le_committers h committing
    rw [List.toFinset_card_of_nodup hnodup, htick] at hcard
    rw [hlen]
    exact hcard

end Honest

theorem everyone_nodup : everyone.Nodup := List.nodup_finRange numberOfComputors

theorem quorum_le_length_everyone : quorum ≤ everyone.length := by
  rw [everyone, List.length_finRange]
  decide

/-- The file of the demo. -/
def demoFile : Rust.Buffer :=
  ⟨layout (demo.fixture demoExterns everyone), length_layout_of_honest demo_honest everyone_nodup⟩

theorem main_demoFile : main demoExterns demoExterns.arbitratorPubkey demoFile.val
    = .ok (reportOf (demo.fixture demoExterns everyone)) :=
  main_of_passed
    (passed_of_honest demo_honest (by decide) (by decide) everyone_nodup quorum_le_length_everyone)
    (rfl : demoFile.val = _)

/-- The demo's file is accepted by both. -/
theorem checked_iff_demo :
    (∃ fx, Host.parse demoFile = pure fx ∧ Guest.main demoExterns (toEnv fx)
      = .ok (ofU32 999 ++ ofU64 demo.queryId ++ (ByteVec.zero 32).val)) ↔
    (queryIdField demoFile.val).toNat < 2 ^ 63 :=
  checked_iff demoExterns demoFile _ main_demoFile

/-- The demo with bit 63 of the query id set. -/
def demo63 : Series := { demo with queryId := demo.queryId ||| 0x8000000000000000 }

theorem demo63_honest : demo63.Honest demoExterns :=
  { demo_honest with message := demo_honest.message }

/-- Its file. -/
def demo63File : Rust.Buffer :=
  ⟨layout (demo63.fixture demoExterns everyone),
    length_layout_of_honest demo63_honest everyone_nodup⟩

/-- The checker accepts the file with bit 63 set; the guest rejects it. -/
theorem checked_not_accepted :
    main demoExterns demoExterns.arbitratorPubkey demo63File.val
        = .ok (reportOf (demo63.fixture demoExterns everyone)) ∧
      ∀ fx journal, Host.parse demo63File = pure fx →
        Guest.main demoExterns (toEnv fx) ≠ .ok journal := by
  have hpassed : Passed demoExterns (demo63.fixture demoExterns everyone) :=
    passed_of_honest demo63_honest (by decide) (by decide) everyone_nodup quorum_le_length_everyone
  have hlayout : demo63File.val = layout (demo63.fixture demoExterns everyone) := rfl
  refine ⟨main_of_passed hpassed hlayout, fun fx journal hparse hmain => ?_⟩
  obtain rfl := Fallible.pure_inj.mp
    ((parse_layout hpassed.wellFormed hlayout).symm.trans hparse)
  have hlow : demo63.queryId.toNat < 2 ^ 63 := ((guest_accepts_iff hpassed journal).mp hmain).1
  exact absurd hlow (by decide)

end ZkQuorum.CheckFixture
