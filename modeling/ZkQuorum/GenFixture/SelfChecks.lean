import ZkQuorum.CheckFixture.Verdict
import ZkQuorum.GenFixture.Codec
import ZkQuorum.GenFixture.Negative

/-!
# What the self-checks of the fixture writer are worth (crypto/tools/gen_fixture.c)

The writer verifies the packet, the query, the reveal and every commit outside the bad suffix
before it writes a file, with the verifier and the hash of the guest. So what the guest makes of a
file needs no assumption on signatures or digests.

- `written_of_main`: what a run that writes a file has checked;
- `countsFor_of_verifyTx`, `not_countsFor_replay`: which commits count for that reason alone;
- **`verdicts_of_main`**: the guest and the checker on the file. Nobody is counted with
  `--replay-query`, at least the good commits without, and exactly the commits without any
  negative option.
-/

namespace ZkQuorum.GenFixture

open LittleEndian Guest Host

/-! ## What is checked -/

/-- The self-checks outside the commit loop. -/
structure SelfChecked (E : Externs) (s : Series) : Prop where
  packet : E.fourqVerify s.arb.pub (s.arb.sign (E.qubicK12 s.signedList))
    (E.qubicK12 s.signedList) = true
  query : verifyTx E (s.queryTx E) = true
  reveal : verifyTx E (s.revealTx E) = true

/-- The ranges that the argument checks leave. -/
structure InRange (s : Series) : Prop where
  epoch : s.epoch ≠ 0
  queryTick : s.queryTick.toNat = s.queryId.toNat / 2 ^ 31
  commitTick : s.queryTick < s.commitTick
  message : 1 ≤ s.message.length ∧ s.message.length ≤ maxReply

theorem inRange_seriesOf (a : Args) (comp : Vector Key numberOfComputors) (arb user : Key) :
    InRange (seriesOf a comp arb user) where
  epoch := by
    have hepoch := a.epoch_range
    intro h
    have hnat : (UInt16.ofNat a.epoch).toNat = (0 : UInt16).toNat := congrArg UInt16.toNat h
    rw [UInt16.toNat_ofNat', UInt16.toNat_zero] at hnat
    omega
  queryTick := queryTick_seriesOf a comp arb user
  commitTick := by
    have hticks := a.ticks_le
    have hlt := a.query_lt_commit
    show UInt32.ofNat a.queryTick < UInt32.ofNat a.commitTick
    rw [UInt32.lt_iff_toNat_lt, UInt32.toNat_ofNat', UInt32.toNat_ofNat']
    omega
  message := a.message_range

/-- A run that writes a file has passed the self-checks, and wrote a commit for each position. -/
structure Written (E : Externs) (u : Setup) (txs : List Bytes) : Prop where
  checked : SelfChecked E u.series
  length : txs.length = u.args.commits
  commit : ∀ n tx idx, txs[n]? = some tx → (orderOf u.args)[n]? = some idx →
    commitTxAt E u.args u.series n idx (itemWith E u.args u.series (mark u.args n) n idx) = .ok tx

section Runs

variable {E : Externs} {H : StockHost} {files : CString → Option Bytes} {argv : List CString}
  {u : Setup} {out : Output} {txs : List Bytes}

theorem written_of_main (hsetup : setup H files argv = .ok u)
    (hmain : main E H files argv = .ok out) :
    InRange u.series ∧
      ∃ txs, out = outputOf E u (E.qubicK12 u.series.message) txs ∧ Written E u txs := by
  have hrange : InRange u.series := by
    rw [(setup_eq_ok hsetup).2.2.2]
    exact inRange_seriesOf _ _ _ _
  rw [main_of_setup hsetup, generate_eq] at hmain
  obtain ⟨⟨hpacket⟩, -, hmain⟩ := Rust.bind_eq_ok.mp hmain
  obtain ⟨⟨hquery⟩, -, hmain⟩ := Rust.bind_eq_ok.mp hmain
  obtain ⟨txs, hloop, hmain⟩ := Rust.bind_eq_ok.mp hmain
  obtain ⟨⟨hreveal⟩, -, hmain⟩ := Rust.bind_eq_ok.mp hmain
  cases hmain
  obtain ⟨hlen, htxs⟩ := commitLoop_replyAt (n := 0) (m := u.args.commits)
    (by rw [length_orderOf, Nat.zero_add]) hloop
  refine ⟨hrange, txs, rfl,
    { checked := ⟨hpacket, hquery, hreveal⟩, length := hlen,
      commit := fun n tx idx htx hidx => ?_ }⟩
  have hn : n < u.args.commits := by
    rw [← hlen]
    exact (List.getElem?_eq_some_iff.mp htx).1
  have hmarked := marked_replyAt (E := E) hrange.message.2 (Nat.le_of_lt hn)
  have hcommit := htxs n tx idx htx (by rw [Nat.zero_add]; exact hidx)
  rwa [Nat.zero_add, (marked_commitItem hrange.message.2 hidx hmarked).1] at hcommit

end Runs

/-! ## Steps 1 to 3 -/

section Steps

variable {E : Externs} {s : Series} {k : Key} {amount : Int64} {tick : UInt32}
  {inputType : UInt16} {input : Bytes}

/-- A transaction that passes its self-check has a valid signature. -/
theorem signatureValid_of_verifyTx (hinput : input.length < 2 ^ 16)
    (h : verifyTx E (buildTx E k amount tick inputType input) = true) :
    SignatureValid E (buildTx E k amount tick inputType input)
      (txOf E k amount tick inputType input) := by
  have hlayout := layout_buildTx E k amount tick inputType hinput
  refine (txSignatureValid_eq_true (parseTx_buildTx E k amount tick inputType hinput)).mp ?_
  rw [txSignatureValid_eq_verifyTx E hlayout, h]

/-- The keys of the series are different. -/
def DistinctPubs (s : Series) : Prop :=
  ∀ i j : Fin numberOfComputors, (s.comp.get i).pub = (s.comp.get j).pub → i = j

/-- **A file that was written passes steps 1 to 3**, when its keys are different and its
arbitrator is the one of the guest. -/
theorem fixtureSteps_of_checked (hchecked : SelfChecked E s) (hrange : InRange s)
    (hpubs : DistinctPubs s) (harb : s.arb.pub = E.arbitratorPubkey) (txs : List Bytes) :
    ∃ q r, FixtureSteps E (fixtureOf E s txs) q r ∧ q.tick = s.queryTick := by
  have hmessage := hrange.message.2
  unfold maxReply at hmessage
  have hquery : (ofU32 s.iface ++ ofU32 s.timeoutMs ++ s.message).length < 2 ^ 16 := by
    simp only [List.length_append, length_ofU32]
    omega
  have hreveal : (ofU64 s.queryId ++ s.message).length < 2 ^ 16 := by
    rw [List.length_append, length_ofU64]
    omega
  -- both inputs fit a `u16` size, so the guest parses what `build_tx` wrote
  refine ⟨txOf E s.user 1000 s.queryTick 10 (ofU32 s.iface ++ ofU32 s.timeoutMs ++ s.message),
    txOf E (s.comp.get s.revealBy) 0 s.revealTick 7 (ofU64 s.queryId ++ s.message),
    { packetValid := ?_, queryValid := ?_, revealValid := ?_ }, rfl⟩
  -- the packet
  · refine { size := Series.length_packet,
             signed := ⟨s.arb.sign (E.qubicK12 s.signedList), ?_, ?_⟩,
             epoch := ?_, distinct := ?_ }
    · exact (List.drop_left' Series.length_signedList).symm
    · show E.fourqVerify _ _ (E.qubicK12 ((s.packet E).take packetSignedSize)) = true
      rw [Series.packet, List.take_left' Series.length_signedList, ← harb]
      exact hchecked.packet
    · show epochOf (s.packet E) ≠ 0
      rw [Series.epochOf_packet]
      exact hrange.epoch
    · intro i j hi hj hkey
      have hpub := (Series.pubkeyAt_packet ⟨i, hi⟩).symm.trans
        (hkey.trans (Series.pubkeyAt_packet ⟨j, hj⟩))
      exact congrArg Fin.val (hpubs ⟨i, hi⟩ ⟨j, hj⟩ (Subtype.ext hpub))
  -- the query
  · exact {
      parses := parseTx_buildTx E s.user 1000 s.queryTick 10 hquery
      inputType := rfl
      destination := rfl
      signature := signatureValid_of_verifyTx hquery hchecked.query
      tick := by
        show s.queryTick.toNat = toNat (bytesOfU64 s.queryId).val / 2 ^ 31
        rw [bytesOfU64, toNat_ofU64]
        exact hrange.queryTick }
  -- the reveal
  · exact {
      parses := parseTx_buildTx E _ 0 s.revealTick 7 hreveal
      inputType := rfl
      destination := rfl
      amount := rfl
      source := ⟨s.revealBy, Series.listedAt_packet s.revealBy⟩
      signature := signatureValid_of_verifyTx hreveal hchecked.reveal
      input := rfl }

end Steps

/-! ## Which commits count -/

section Commits

variable {E : Externs} {a : Args} {s : Series} {n i : Nat} {idx : Fin numberOfComputors}
  {item tx : Bytes}

/-- A commit that passes its self-check counts for its computor. -/
theorem countsFor_of_verifyTx (hrange : InRange s) (h : verifyTx E (s.commitTx E idx) = true) :
    CountsFor E s (s.commitTx E idx) idx := by
  have hlen : (s.item E idx).length = commitItemSize := by
    simp only [Series.item, List.length_append, length_ofU64, ByteVec.length_val]
  have hinput : (s.item E idx).length < 2 ^ 16 := by
    rw [hlen]
    decide
  exact ⟨_, { parses := parseTx_buildTx E _ 0 s.commitTick 6 hinput
              inputType := rfl
              destination := rfl
              amount := rfl
              tick := hrange.commitTick
              source := Series.listedAt_packet idx
              item := by
                refine ⟨0, Nat.le_of_eq (by rw [Nat.zero_add, Nat.one_mul]; exact hlen.symm), ?_⟩
                rw [Nat.zero_mul, List.drop_zero]
                exact List.take_of_length_le (Nat.le_of_eq hlen)
              signature := signatureValid_of_verifyTx hinput h }⟩

/-- The one item of a commit that counts begins with the query id. -/
theorem take_item_of_countsFor (hinput : CommitInput tx item) (hlen : item.length = commitItemSize)
    (h : CountsFor E s tx i) : item.take 8 = ofU64 s.queryId := by
  obtain ⟨t, hparse, rfl⟩ := hinput
  obtain ⟨t', ht⟩ := h
  cases hparse.symm.trans ht.parses
  obtain ⟨k, hk, hitem⟩ := ht.item
  rw [hlen] at hk
  obtain rfl : k = 0 := by
    unfold commitItemSize at hk
    omega
  rw [Nat.zero_mul, List.drop_zero, List.take_of_length_le (Nat.le_of_eq hlen)] at hitem
  rw [hitem, List.append_assoc]
  exact List.take_left' (length_ofU64 _)

/-- With `--replay-query` no commit counts: its item is for the next query. -/
theorem not_countsFor_replay (hreplay : a.replay = true) {b : UInt8}
    (hinput : CommitInput tx (itemWith E a s b n idx)) : ¬ CountsFor E s tx i := by
  intro h
  have htake := take_item_of_countsFor hinput (length_itemWith b) h
  have hnext : (itemWith E a s b n idx).take 8 = ofU64 (s.queryId + 1) := by
    unfold itemWith replyItem
    rw [hreplay]
    split
    · rw [List.append_assoc]
      exact List.take_left' (length_ofU64 _)
    · rw [List.append_assoc]
      exact List.take_left' (length_ofU64 _)
  have hid := ofU64_inj.mp (hnext.symm.trans htake)
  have hone : (1 : UInt64) = 0 := by
    have hsub : s.queryId + 1 - s.queryId = s.queryId - s.queryId := congrArg (· - s.queryId) hid
    rwa [UInt64.add_comm, UInt64.add_sub_cancel, UInt64.sub_self] at hsub
  exact absurd hone (by decide)

/-- The commit of a position before both suffixes. -/
theorem commitTx_of_commitTxAt (hreplay : a.replay = false) (hn : n < goodCommits a) {b : UInt8}
    (h : commitTxAt E a s n idx (itemWith E a s b n idx) = .ok tx) :
    tx = s.commitTx E idx ∧ verifyTx E (s.commitTx E idx) = true := by
  obtain ⟨hbad, hwrong⟩ := lt_goodCommits_iff.mp hn
  have hitem : itemWith E a s b n idx = s.item E idx := by
    rw [itemWith, if_neg (Nat.not_le.mpr hwrong), replyItem, hreplay, if_neg Bool.false_ne_true,
      UInt64.add_zero]
    rfl
  have hgood : decide (a.commits - a.badCommits ≤ n) = false :=
    decide_eq_false (Nat.not_le.mpr hbad)
  rw [hitem, commitTxAt, hgood] at h
  obtain ⟨⟨hverify⟩, -, h⟩ := Rust.bind_eq_ok.mp h
  cases h
  exact ⟨rfl, hverify⟩

end Commits

/-! ## The file -/

section File

variable {E : Externs} {H : StockHost} {files : CString → Option Bytes} {argv : List CString}
  {u : Setup} {out : Output} {txs : List Bytes}

/-- Every commit of the file has one item. -/
theorem Written.length_tx (h : Written E u txs) : ∀ tx ∈ txs, tx.length = 216 := by
  intro tx htx
  obtain ⟨n, hn, rfl⟩ := List.mem_iff_getElem.mp htx
  have hidx : n < (orderOf u.args).length := by
    rw [length_orderOf, ← h.length]
    exact hn
  have hcommit := h.commit n _ _ (List.getElem?_eq_getElem hn) (List.getElem?_eq_getElem hidx)
  exact (commitInput_of_commitTxAt (length_itemWith _) hcommit).length (length_itemWith _)

theorem wellFormed_of_written (hrange : InRange u.series) (h : Written E u txs) :
    (fixtureOf E u.series txs).WellFormed := by
  have hmessage := hrange.message.2
  have hle := h.length.trans_le u.args.commits_le
  unfold maxReply at hmessage
  refine { packet := Series.length_packet, queryTx := ?_, reply := ?_, count := ?_,
           commitTxs := ?_, revealTx := ?_ }
  · rw [fixtureOf, Series.length_queryTx]
    unfold txHeaderSize
    omega
  · show u.series.message.length < 2 ^ 32
    omega
  · exact Nat.lt_of_le_of_lt hle (by decide)
  · intro tx htx
    rw [h.length_tx tx htx]
    decide
  · rw [fixtureOf, Series.length_revealTx]
    unfold txHeaderSize
    omega

/-- A file of commits with one item each is not longer than a buffer can be. -/
theorem length_layout_le_isizeMax {fx : Fixture} (h : fx.WellFormed)
    (hlen : ∀ tx ∈ fx.commitTxs, tx.length = 216) : (layout fx).length ≤ Rust.isizeMax := by
  have hpacket := h.packet
  have hquery := h.queryTx
  have hreply := h.reply
  have hcount := h.count
  have hreveal := h.revealTx
  rw [length_layout, length_commits hlen]
  unfold packetSize numberOfComputors signatureSize at hpacket
  unfold Rust.isizeMax
  omega

/-- With `--replay-query` nobody is counted. -/
theorem committers_of_replay (hreplay : u.args.replay = true) (h : Written E u txs) :
    (fixtureCommitters E (fixtureOf E u.series txs) u.series.queryTick).ncard = 0 := by
  have hnone : fixtureCommitters E (fixtureOf E u.series txs) u.series.queryTick = ∅ := by
    refine Set.eq_empty_of_forall_notMem ?_
    rintro i ⟨tx, htx, hcounts⟩
    obtain ⟨n, hn, rfl⟩ := List.mem_iff_getElem.mp htx
    have hidx : n < (orderOf u.args).length := by
      rw [length_orderOf, ← h.length]
      exact hn
    have hcommit := h.commit n _ _ (List.getElem?_eq_getElem hn) (List.getElem?_eq_getElem hidx)
    exact not_countsFor_replay hreplay
      (commitInput_of_commitTxAt (length_itemWith _) hcommit) hcounts
  rw [hnone, Set.ncard_empty]

/-- Without it the good commits are. -/
theorem goodCommits_le_ncard (hrange : InRange u.series) (hreplay : u.args.replay = false)
    (h : Written E u txs) : goodCommits u.args
      ≤ (fixtureCommitters E (fixtureOf E u.series txs) u.series.queryTick).ncard := by
  have hfinite : (fixtureCommitters E (fixtureOf E u.series txs) u.series.queryTick).Finite :=
    (Set.finite_lt_nat numberOfComputors).subset fun i ⟨_, _, hi⟩ => hi.lt
  have hcard : goodCommits u.args
      = (((goodComputors u.args).toFinset.map Fin.valEmbedding : Finset Nat) : Set Nat).ncard := by
    rw [Set.ncard_coe_finset, Finset.card_map,
      List.toFinset_card_of_nodup (nodup_goodComputors _), length_goodComputors]
  rw [hcard]
  refine Set.ncard_le_ncard ?_ hfinite
  intro i hi
  obtain ⟨idx, hidx, rfl⟩ := Finset.mem_map.mp hi
  -- the position of the computor in the order, which is before both suffixes
  obtain ⟨n, hn, hget⟩ := List.mem_iff_getElem.mp (List.mem_toFinset.mp hidx)
  have hgood : n < goodCommits u.args := by
    rw [← length_goodComputors]
    exact hn
  have hlt : n < txs.length := by
    rw [h.length]
    exact Nat.lt_of_lt_of_le hgood (goodCommits_le _)
  have horder : (orderOf u.args)[n]? = some idx := by
    have hget' : (goodComputors u.args)[n]? = some idx := List.getElem?_eq_some_iff.mpr ⟨hn, hget⟩
    rwa [goodComputors, List.getElem?_take_of_lt hgood] at hget'
  obtain ⟨htx, hverify⟩ := commitTx_of_commitTxAt hreplay hgood
    (h.commit n _ _ (List.getElem?_eq_getElem hlt) horder)
  refine ⟨txs[n], List.getElem_mem hlt, ?_⟩
  rw [htx]
  exact countsFor_of_verifyTx hrange hverify

/-- The checker accepts a file that was written just when all of its commits count and are a
quorum. -/
theorem checkFixture_iff {bytes : Rust.Buffer} (hrange : InRange u.series) (h : Written E u txs)
    (hpubs : DistinctPubs u.series) (harb : u.series.arb.pub = E.arbitratorPubkey)
    (hbytes : bytes.val = layout (fixtureOf E u.series txs)) :
    (∃ report, CheckFixture.main E E.arbitratorPubkey bytes.val = .ok report) ↔
      quorum ≤ u.args.commits ∧
        (fixtureCommitters E (fixtureOf E u.series txs) u.series.queryTick).ncard
          = u.args.commits := by
  have htick : u.series.queryTick = CheckFixture.tickOf u.series.queryId := by
    have hlt := u.series.queryTick.toNat_lt
    refine UInt32.toNat.inj ?_
    rw [CheckFixture.tickOf, UInt64.toNat_toUInt32, UInt64.toNat_shiftRight,
      Nat.shiftRight_eq_div_pow, show (31 : UInt64).toNat % 64 = 31 from rfl, ← hrange.queryTick,
      Nat.mod_eq_of_lt hlt]
  have hwell := wellFormed_of_written hrange h
  constructor
  · rintro ⟨report, hreport⟩
    obtain ⟨fx, hlayout, hpassed, -⟩ := CheckFixture.passed_of_main hreport
    -- the file has one fixture
    obtain rfl : fixtureOf E u.series txs = fx := Fallible.pure_inj.mp
      ((parse_layout hwell hbytes).symm.trans (parse_layout hpassed.wellFormed hlayout))
    have hcommits := hpassed.commits
    have hquorum := hpassed.quorum
    rw [← h.length, htick]
    exact ⟨hquorum, hcommits⟩
  · rintro ⟨hquorum, hcommits⟩
    obtain ⟨q, r, hsteps, hqtick⟩ := fixtureSteps_of_checked h.checked hrange hpubs harb txs
    refine ⟨_, CheckFixture.main_of_passed ?_ hbytes⟩
    exact {
      wellFormed := hwell
      packetValid := hsteps.packetValid
      query := ⟨q, hsteps.queryValid.parses, hsteps.queryValid.inputType,
        hsteps.queryValid.destination, hsteps.queryValid.signature, hqtick.trans htick⟩
      replyLength := hrange.message
      reveal := ⟨r, hsteps.revealValid⟩
      commits := by
        show (fixtureCommitters E _ (CheckFixture.tickOf u.series.queryId)).ncard = txs.length
        rw [h.length, ← htick, hcommits]
      quorum := by
        show quorum ≤ txs.length
        rw [h.length]
        exact hquorum }

/-- The guest on a file that was written. -/
theorem guest_of_written (hrange : InRange u.series) (h : Written E u txs)
    (hpubs : DistinctPubs u.series) (harb : u.series.arb.pub = E.arbitratorPubkey)
    (digest : ByteVec 32) :
    let fx := fixtureOf E u.series txs
    let D := (fixtureCommitters E fx u.series.queryTick).ncard
    ∃ bytes : Rust.Buffer, bytes.val = (outputOf E u digest txs).file ∧ bytes.val = layout fx ∧
      parse bytes = pure fx ∧ D ≤ u.args.commits ∧
      Guest.main E (toEnv fx) = (if quorum ≤ D then
        .ok (journalOf u.series.epoch (bytesOfU64 u.series.queryId) (E.qubicK12 u.series.message))
        else .error (.message (quorumNotReached D))) := by
  have hwell := wellFormed_of_written hrange h
  have hfile := file_outputOf (E := E) digest h.length
  have hsize := length_layout_le_isizeMax hwell h.length_tx
  obtain ⟨q, r, hsteps, hqtick⟩ := fixtureSteps_of_checked h.checked hrange hpubs harb txs
  -- at most 676 commits of 216 bytes, so the guest has room for the frame
  have hframe : (commitsFrame (fixtureOf E u.series txs)).length < 2 ^ 31 := by
    have hle := h.length.trans_le u.args.commits_le
    have hcommits := length_commits h.length_tx
    show (ofU32 _ ++ txs.flatMap blob).length < 2 ^ 31
    rw [List.length_append, length_ofU32]
    unfold numberOfComputors at hle
    omega
  have hguest := main_toEnv_of_steps hsteps hframe
  have hepoch : epochOf (fixtureOf E u.series txs).computorsPacket = u.series.epoch :=
    Series.epochOf_packet
  rw [hqtick, hepoch] at hguest
  refine ⟨⟨_, hsize⟩, hfile.symm, rfl, parse_layout hwell rfl, ?_, hguest⟩
  rw [← h.length]
  exact CheckFixture.ncard_le_length E _ _ _ hsteps.packetValid.distinct txs

/-- **What a written file is worth to the guest and to the checker.** With different keys and the
arbitrator of the guest, the file parses, and the guest counts nobody in it with
`--replay-query`, and without it at least the commits before both suffixes and at most all of
them. It accepts when these are a quorum, and the checker when moreover they are all. -/
theorem verdicts_of_main (hsetup : setup H files argv = .ok u)
    (hmain : main E H files argv = .ok out) (hpubs : DistinctPubs u.series)
    (harb : u.series.arb.pub = E.arbitratorPubkey) :
    ∃ (bytes : Rust.Buffer) (fx : Fixture) (D : Nat), bytes.val = out.file ∧
      parse bytes = pure fx ∧ (fixtureCommitters E fx u.series.queryTick).ncard = D ∧
      Guest.main E (toEnv fx) = (if quorum ≤ D then
        .ok (journalOf u.series.epoch (bytesOfU64 u.series.queryId) (E.qubicK12 u.series.message))
        else .error (.message (quorumNotReached D))) ∧
      ((∃ report, CheckFixture.main E E.arbitratorPubkey out.file = .ok report) ↔
        quorum ≤ u.args.commits ∧ D = u.args.commits) ∧
      (u.args.replay = true → D = 0) ∧
      (u.args.replay = false → goodCommits u.args ≤ D ∧ D ≤ u.args.commits) := by
  obtain ⟨hrange, txs, rfl, h⟩ := written_of_main hsetup hmain
  obtain ⟨bytes, hfile, hlayout, hparse, hle, hguest⟩ :=
    guest_of_written hrange h hpubs harb (E.qubicK12 u.series.message)
  have hcheck := checkFixture_iff hrange h hpubs harb hlayout
  rw [hfile] at hcheck
  exact ⟨bytes, _, _, hfile, hparse, rfl, hguest, hcheck,
    fun hreplay => committers_of_replay hreplay h,
    fun hreplay => ⟨goodCommits_le_ncard hrange hreplay h, hle⟩⟩

end File

theorem distinctPubs_demo : DistinctPubs demoSetup.series := by
  intro i j h
  rw [comp_demoSetup, comp_demoSetup] at h
  exact demoSeed_inj h

/-- The theorem at the demo, which has ten bad commits. -/
theorem verdicts_demo : ∃ out, main reportExterns demoHost demoFiles demoArgv = .ok out ∧
    ∃ (bytes : Rust.Buffer) (fx : Fixture) (D : Nat), bytes.val = out.file ∧
      parse bytes = pure fx ∧ 490 ≤ D ∧ D ≤ 500 := by
  obtain ⟨out, hmain⟩ := main_demoArgv
  obtain ⟨bytes, fx, D, hbytes, hparse, -, -, -, -, hcount⟩ :=
    verdicts_of_main setup_demo hmain distinctPubs_demo rfl
  exact ⟨out, hmain, bytes, fx, D, hbytes, hparse, hcount rfl⟩

end ZkQuorum.GenFixture
