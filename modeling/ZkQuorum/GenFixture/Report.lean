import ZkQuorum.GenFixture.Commits
import ZkQuorum.Host.Format

/-!
# What the fixture writer reports (crypto/tools/gen_fixture.c)

`main` prints how many of the commits it wrote are good. **`reportsCount_iff`** says when
that is the number of computors the guest counts in the file: the bad commits and those
with a wrong digest are both the last ones, so one suffix contains the other, and the
formula for the overlap is right only when one of them is empty or everything.

`exists_generate` is the other half: with keys whose signatures verify, no self-check
fails.
-/

namespace ZkQuorum.GenFixture

open LittleEndian Guest Host

/-! ## Assumptions -/

/-- The verifier accepts what `qubic_sign` makes under the keys of a subseed, and rejects it
after byte 7 is xored with `0xff`. -/
structure Signer (E : Externs) (H : StockHost) : Prop where
  accepts : ∀ sub d, E.fourqVerify (H.publicKey sub) (H.sign sub (H.publicKey sub) d) d = true
  rejects : ∀ sub d,
    E.fourqVerify (H.publicKey sub) (invertSig (H.sign sub (H.publicKey sub) d)) d = false

/-- No two of the hashed strings collide: the reply and the reply with an `x`, and the seeds
of the computors on the way to their keys. The second says a bit more than that the hash has no
collisions: the private keys, which are hash values, are distinct modulo the order too. -/
structure CollisionFree (E : Externs) (u : Setup) : Prop where
  reply : E.qubicK12 u.series.message ≠ E.qubicK12 (u.series.message ++ ascii "x")
  keys : ∀ i j : Fin numberOfComputors, (u.series.comp.get i).pub = (u.series.comp.get j).pub →
    u.seeds.get i = u.seeds.get j

/-- 676 distinct seeds. -/
def DistinctSeeds (u : Setup) : Prop :=
  ∀ i j : Fin numberOfComputors, u.seeds.get i = u.seeds.get j → i = j

/-! ## The series of a setup -/

section Honest

variable {E : Externs} {H : StockHost} {files : CString → Option Bytes} {argv : List CString}
  {u : Setup}

theorem signs_keyOf (hsign : Signer E H) (sub : ByteVec 32) : Signs E (keyOf H sub) :=
  fun d => hsign.accepts sub d

theorem get_vectorOf {α : Type} {n : Nat} (l : List α) (h : l.length = n) (i : Fin n) :
    (vectorOf l h).get i = l.get (i.cast h.symm) := rfl

theorem get_map {α β : Type} {n : Nat} (f : α → β) (v : Vector α n) (i : Fin n) :
    (v.map f).get i = f (v.get i) := by
  show (v.map f)[i.val] = f v[i.val]
  rw [Vector.getElem_map]

/-- The keys of a setup are keys of subseeds, and its series has the data of the arguments. -/
theorem setup_eq_ok (h : setup H files argv = .ok u) :
    (∀ i : Fin numberOfComputors, ∃ sub, u.series.comp.get i = keyOf H sub) ∧
      (∃ sub, u.series.arb = keyOf H sub) ∧ (∃ sub, u.series.user = keyOf H sub) ∧
        u.series = seriesOf u.args u.series.comp u.series.arb u.series.user := by
  unfold setup at h
  obtain ⟨o, -, h⟩ := Rust.bind_eq_ok.mp h
  obtain ⟨a, -, h⟩ := Rust.bind_eq_ok.mp h
  obtain ⟨comp, hcomp, h⟩ := Rust.bind_eq_ok.mp h
  obtain ⟨⟨hlen⟩, -, h⟩ := Rust.bind_eq_ok.mp h
  obtain ⟨arbs, harbs, h⟩ := Rust.bind_eq_ok.mp h
  split at h
  · obtain ⟨user, huser, h⟩ := Rust.bind_eq_ok.mp h
    cases h
    refine ⟨?_, readSeeds_eq_ok harbs _ List.mem_cons_self, (derive_eq_ok huser).2, rfl⟩
    intro i
    show ∃ sub, ((vectorOf comp hlen).map (·.key)).get i = keyOf H sub
    rw [get_map, get_vectorOf]
    exact readSeeds_eq_ok hcomp _ (List.get_mem _ _)
  · cases h

/-- The tick of the query is the one in the query id. -/
theorem queryTick_seriesOf (a : Args) (comp : Vector Key numberOfComputors) (arb user : Key) :
    (seriesOf a comp arb user).queryTick.toNat
      = (seriesOf a comp arb user).queryId.toNat / 2 ^ 31 := by
  have hle := a.ticks_le.1
  show (UInt32.ofNat a.queryTick).toNat
    = ((UInt64.ofNat a.queryTick <<< 31) ||| 0).toNat / 2 ^ 31
  rw [UInt64.or_zero, UInt64.toNat_shiftLeft, UInt64.toNat_ofNat', UInt32.toNat_ofNat',
    show (31 : UInt64).toNat % 64 = 31 from rfl, Nat.shiftLeft_eq]
  omega

/-- With distinct seeds the series of a setup is an honest one. -/
theorem honest_of_setup (hsetup : setup H files argv = .ok u) (hsign : Signer E H)
    (hfree : CollisionFree E u) (hseeds : DistinctSeeds u)
    (harb : u.series.arb.pub = E.arbitratorPubkey) : u.series.Honest E := by
  obtain ⟨hcomp, ⟨arb, harbKey⟩, ⟨user, huserKey⟩, hseries⟩ := setup_eq_ok hsetup
  have hepoch := u.args.epoch_range
  have hticks := u.args.ticks_le
  have hlt := u.args.query_lt_commit
  have hmessage := u.args.message_range.2
  exact {
    arbitrator := harb
    arbSigns := harbKey ▸ signs_keyOf hsign arb
    userSigns := huserKey ▸ signs_keyOf hsign user
    compSigns := by
      intro i
      obtain ⟨sub, hsub⟩ := hcomp i
      rw [hsub]
      exact signs_keyOf hsign sub
    distinct := fun i j hpub => hseeds i j (hfree.keys i j hpub)
    epoch := by
      rw [hseries]
      show UInt16.ofNat u.args.epoch ≠ 0
      intro h
      have hnat := congrArg UInt16.toNat h
      rw [UInt16.toNat_ofNat', UInt16.toNat_zero] at hnat
      omega
    commitTick := by
      rw [hseries]
      show UInt32.ofNat u.args.queryTick < UInt32.ofNat u.args.commitTick
      rw [UInt32.lt_iff_toNat_lt, UInt32.toNat_ofNat', UInt32.toNat_ofNat']
      omega
    message := by
      rw [hseries]
      show 8 + u.args.message.val.length < 2 ^ 16
      unfold maxReply at hmessage
      omega }

end Honest

/-! ## What is written -/

/-- The fixture in the file. -/
def fixtureOf (E : Externs) (s : Series) (commitTxs : List Bytes) : Fixture where
  computorsPacket := s.packet E
  queryId := s.queryId
  queryTx := s.queryTx E
  reply := s.message
  commitTxs := commitTxs
  revealTx := s.revealTx E

/-- The computors that commit before both suffixes. -/
def goodComputors (a : Args) : List (Fin numberOfComputors) :=
  ((commitOrder a.shuffle).toList.take a.commits).take (goodCommits a)

section Written

variable {E : Externs} {u : Setup} {commitTxs : List Bytes}

theorem file_outputOf (d : ByteVec 32) (h : commitTxs.length = u.args.commits) :
    (outputOf E u d commitTxs).file = layout (fixtureOf E u.series commitTxs) := by
  show _ = magic ++ u.series.packet E ++ ofU64 u.series.queryId ++ fputBlob (u.series.queryTx E)
    ++ fputBlob u.series.message ++ ofU32 (UInt32.ofNat commitTxs.length)
    ++ commitTxs.flatMap fputBlob ++ fputBlob (u.series.revealTx E)
  rw [h]
  rfl

/-- **No self-check fails**, and the commits are those of the good computors and commits that
count for nobody. -/
theorem exists_generate (h : u.series.Honest E) (hreplay : u.args.replay = false)
    (hreply : E.qubicK12 u.series.message ≠ E.qubicK12 (u.series.message ++ ascii "x"))
    (hrejects : ∀ (i : Fin numberOfComputors) (digest : ByteVec 32), E.fourqVerify
      (u.series.comp.get i).pub (invertSig ((u.series.comp.get i).sign digest)) digest = false) :
    ∃ rest, generate E u = .ok (outputOf E u (E.qubicK12 u.series.message)
        ((goodComputors u.args).map (u.series.commitTx E) ++ rest)) ∧
      (goodComputors u.args).length + rest.length = u.args.commits ∧
      (∀ tx ∈ rest, tx.length = 216) ∧ ∀ tx ∈ rest, ∀ i, ¬ CountsFor E u.series tx i := by
  have hmessage : (replyBuffer u.series).take u.series.message.length = u.series.message := by
    have hx := congrArg (List.take u.series.message.length) (take_replyBuffer u.series)
    rw [List.take_take, Nat.min_eq_left (Nat.le_succ _), List.take_left' rfl] at hx
    exact hx
  have hneg : Negative E u.series (digestsOf E u.series) :=
    { reply := rfl, wrongReply := hreply.symm, rejects := hrejects }
  -- the loop starts on a buffer that holds the reply
  obtain ⟨rest, hloop, hrest, hlens, hnone⟩ := commitLoop_eq h hneg hreplay
    (orderOf u.args) (n := 0) hmessage
  refine ⟨rest, ?_, ?_, hlens, hnone⟩
  · have hpacket := h.arbSigns (E.qubicK12 u.series.signedList)
    have hquery : verifyTx E (u.series.queryTx E) = true := verifyTx_buildTx _ _ _ _ _ _ h.userSigns
    have hreveal : verifyTx E (u.series.revealTx E) = true :=
      verifyTx_buildTx _ _ _ _ _ _ (h.compSigns _)
    rw [generate_eq]
    dsimp only
    rw [require_of hpacket, Rust.ok_bind, require_of hquery, Rust.ok_bind, hloop, Rust.ok_bind,
      require_of hreveal, Rust.ok_bind, Nat.sub_zero]
    rfl
  · show ((orderOf u.args).take (goodCommits u.args)).length + rest.length = u.args.commits
    rw [hrest, Nat.sub_zero, ← List.length_append, List.take_append_drop, length_orderOf]

theorem nodup_goodComputors (a : Args) : (goodComputors a).Nodup := by
  have hnodup := (perm_commitOrder a.shuffle).nodup_iff.mpr (List.nodup_finRange _)
  exact (hnodup.sublist (List.take_sublist _ _)).sublist (List.take_sublist _ _)

theorem length_goodComputors (a : Args) : (goodComputors a).length = goodCommits a := by
  show ((orderOf a).take (goodCommits a)).length = goodCommits a
  rw [List.length_take, length_orderOf, Nat.min_eq_left (goodCommits_le a)]

/-- **The guest counts the commits before both suffixes.** -/
theorem ncard_fixtureCommitters {s : Series} {computors : List (Fin numberOfComputors)}
    {rest : List Bytes} (h : s.Honest E) (hnodup : computors.Nodup)
    (hnone : ∀ tx ∈ rest, ∀ i, ¬ CountsFor E s tx i) :
    (fixtureCommitters E (fixtureOf E s (computors.map (s.commitTx E) ++ rest)) s.queryTick).ncard
      = computors.length := by
  have hset : fixtureCommitters E (fixtureOf E s (computors.map (s.commitTx E) ++ rest)) s.queryTick
      = ((computors.toFinset.map Fin.valEmbedding : Finset Nat) : Set Nat) := by
    ext i
    simp only [Finset.coe_map, Set.mem_image, Finset.mem_coe, List.mem_toFinset,
      Fin.valEmbedding_apply]
    constructor
    · rintro ⟨tx, htx, hcounts⟩
      rcases List.mem_append.mp htx with hmem | hmem
      · obtain ⟨idx, hidx, rfl⟩ := List.mem_map.mp hmem
        exact ⟨idx, hidx, ((countsFor_commitTx h idx).mp hcounts).symm⟩
      · exact absurd hcounts (hnone tx hmem i)
    · rintro ⟨idx, hidx, rfl⟩
      exact ⟨s.commitTx E idx, List.mem_append_left _ (List.mem_map_of_mem hidx),
        (countsFor_commitTx h idx).mpr rfl⟩
  rw [hset, Set.ncard_coe_finset, Finset.card_map, List.toFinset_card_of_nodup hnodup]

/-- The file is a well-formed fixture. -/
theorem wellFormed_fixtureOf {s : Series} (h : s.Honest E)
    (hlen : ∀ tx ∈ commitTxs, tx.length = 216) (hcount : commitTxs.length ≤ numberOfComputors) :
    (fixtureOf E s commitTxs).WellFormed := by
  have hmessage := h.message
  constructor
  · exact Series.length_packet
  · show (s.queryTx E).length < 2 ^ 32
    rw [Series.length_queryTx]
    unfold txHeaderSize
    omega
  · show s.message.length < 2 ^ 32
    omega
  · show commitTxs.length < 2 ^ 32
    exact Nat.lt_of_le_of_lt hcount (by decide)
  · intro tx htx
    rw [hlen tx htx]
    decide
  · show (s.revealTx E).length < 2 ^ 32
    rw [Series.length_revealTx]
    unfold txHeaderSize
    omega

theorem length_commits (hlen : ∀ tx ∈ commitTxs, tx.length = 216) :
    (commitTxs.flatMap blob).length = commitTxs.length * 220 := by
  refine length_flatMap_blocks fun tx htx => ?_
  rw [blob, Records.length_encode, hlen tx htx]

theorem length_layout_le {s : Series} (h : s.Honest E)
    (hlen : ∀ tx ∈ commitTxs, tx.length = 216) (hcount : commitTxs.length ≤ numberOfComputors) :
    (layout (fixtureOf E s commitTxs)).length ≤ Rust.isizeMax := by
  have hmessage := h.message
  have hpacket : (s.packet E).length = packetSize := Series.length_packet
  have hquery := Series.length_queryTx (E := E) (s := s)
  have hreveal := Series.length_revealTx (E := E) (s := s)
  have hcommits := length_commits hlen
  rw [length_layout]
  show 8 + (s.packet E).length + 8 + (4 + (s.queryTx E).length) + (4 + s.message.length) + 4
    + (commitTxs.flatMap blob).length + (4 + (s.revealTx E).length) ≤ Rust.isizeMax
  unfold numberOfComputors at hcount
  unfold txHeaderSize at hquery hreveal
  unfold packetSize numberOfComputors signatureSize at hpacket
  unfold Rust.isizeMax
  omega

end Written

/-! ## The report -/

/-- The file is accepted by `Fixture::parse`, it passes steps 1 to 3 of the guest statement,
the guest counts as many computors as the report says are good, and accepts accordingly. -/
def ReportsCount (E : Externs) (out : Output) : Prop :=
  ∃ (bytes : Rust.Buffer) (fx : Fixture) (q r : Tx), bytes.val = out.file ∧
    parse bytes = pure fx ∧ FixtureSteps E fx q r ∧
      ((fixtureCommitters E fx q.tick).ncard : Int) = out.report.good ∧
        ((∃ journal, Guest.main E (toEnv fx) = .ok journal) ↔ (quorum : Int) ≤ out.report.good)

/-- What is printed is what the longer suffix leaves, when one suffix is empty or has all
commits. -/
theorem printedGood_eq_iff (a : Args) : (goodCommits a : Int) = printedGood a
    ↔ a.badCommits = 0 ∨ a.wrongDigest = 0 ∨ a.badCommits = a.commits
      ∨ a.wrongDigest = a.commits := by
  have hle := a.suffixes_le
  unfold goodCommits printedGood
  dsimp only
  split
  · omega
  · omega

section Report

variable {E : Externs} {H : StockHost} {files : CString → Option Bytes} {argv : List CString}
  {u : Setup} {out : Output}

theorem rejects_of_setup (hsetup : setup H files argv = .ok u) (hsign : Signer E H)
    (i : Fin numberOfComputors) (digest : ByteVec 32) : E.fourqVerify (u.series.comp.get i).pub
      (invertSig ((u.series.comp.get i).sign digest)) digest = false := by
  obtain ⟨hcomp, -⟩ := setup_eq_ok hsetup
  obtain ⟨sub, hsub⟩ := hcomp i
  rw [hsub]
  exact hsign.rejects sub digest

theorem main_of_setup (hsetup : setup H files argv = .ok u) :
    main E H files argv = generate E u := by
  rw [main, hsetup]
  rfl

/-- The guest on a fixture of an honest series: it passes steps 1 to 3, and accepts when the
computors it counts are a quorum. -/
theorem guest_of_honest {s : Series} (h : s.Honest E)
    (htick : s.queryTick.toNat = s.queryId.toNat / 2 ^ 31) {commitTxs : List Bytes}
    (hlens : ∀ tx ∈ commitTxs, tx.length = 216) (hcount : commitTxs.length ≤ numberOfComputors) :
    ∃ q r, FixtureSteps E (fixtureOf E s commitTxs) q r ∧ q.tick = s.queryTick ∧
      ((∃ journal, Guest.main E (toEnv (fixtureOf E s commitTxs)) = .ok journal)
        ↔ quorum ≤ (fixtureCommitters E (fixtureOf E s commitTxs) s.queryTick).ncard) := by
  obtain ⟨q, r, hsteps, hqtick⟩ := Series.fixtureSteps_of_honest h htick []
  refine ⟨q, r, hsteps, hqtick, ?_⟩
  have hframe : (commitsFrame (fixtureOf E s commitTxs)).length < 2 ^ 31 := by
    have hcommits := length_commits hlens
    show (ofU32 _ ++ commitTxs.flatMap blob).length < 2 ^ 31
    rw [List.length_append, length_ofU32]
    unfold numberOfComputors at hcount
    omega
  have hfixture : FixtureSteps E (fixtureOf E s commitTxs) q r := hsteps
  have hmain := main_toEnv_of_steps hfixture hframe
  rw [hqtick] at hmain
  rw [hmain]
  by_cases hquorum : quorum ≤ (fixtureCommitters E (fixtureOf E s commitTxs) s.queryTick).ncard
  · rw [if_pos hquorum]
    exact ⟨fun _ => hquorum, fun _ => ⟨_, rfl⟩⟩
  · rw [if_neg hquorum]
    exact ⟨fun ⟨_, hok⟩ => (nomatch hok), fun hge => absurd hge hquorum⟩

/-- **What the guest makes of the file**: it passes steps 1 to 3, and the guest counts the
commits before both suffixes. -/
theorem guest_of_main (hsetup : setup H files argv = .ok u) (hmain : main E H files argv = .ok out)
    (hreplay : u.args.replay = false) (hsign : Signer E H) (hfree : CollisionFree E u)
    (hseeds : DistinctSeeds u) (harb : u.series.arb.pub = E.arbitratorPubkey) :
    ∃ (bytes : Rust.Buffer) (fx : Fixture) (q r : Tx), bytes.val = out.file ∧
      parse bytes = pure fx ∧ FixtureSteps E fx q r ∧
        (fixtureCommitters E fx q.tick).ncard = goodCommits u.args ∧
          ((∃ journal, Guest.main E (toEnv fx) = .ok journal) ↔ quorum ≤ goodCommits u.args) ∧
            out.report.good = printedGood u.args := by
  have h := honest_of_setup hsetup hsign hfree hseeds harb
  obtain ⟨rest, hgenerate, hcount, hlens, hnone⟩ :=
    exists_generate h hreplay hfree.reply (rejects_of_setup hsetup hsign)
  rw [main_of_setup hsetup, hgenerate] at hmain
  cases hmain
  have htick : u.series.queryTick.toNat = u.series.queryId.toNat / 2 ^ 31 := by
    rw [(setup_eq_ok hsetup).2.2.2]
    exact queryTick_seriesOf _ _ _ _
  have hlength : ((goodComputors u.args).map (u.series.commitTx E) ++ rest).length
      = u.args.commits := by
    rw [List.length_append, List.length_map, hcount]
  have hlens' : ∀ tx ∈ (goodComputors u.args).map (u.series.commitTx E) ++ rest,
      tx.length = 216 := by
    intro tx htx
    rcases List.mem_append.mp htx with hmem | hmem
    · obtain ⟨idx, -, rfl⟩ := List.mem_map.mp hmem
      exact Series.length_commitTx idx
    · exact hlens tx hmem
  have hle := hlength.trans_le u.args.commits_le
  have hfile := file_outputOf (E := E) (E.qubicK12 u.series.message) hlength
  obtain ⟨q, r, hsteps, hqtick, haccept⟩ := guest_of_honest h htick hlens' hle
  -- the committers are the good computors: nobody else's commit counts
  have hncard := ncard_fixtureCommitters h (nodup_goodComputors u.args) hnone
  rw [length_goodComputors] at hncard
  rw [hncard] at haccept
  have hsize := length_layout_le h hlens' hle
  rw [← hfile] at hsize
  refine ⟨⟨_, hsize⟩, _, q, r, rfl,
    parse_layout (wellFormed_fixtureOf h hlens' hle) hfile, hsteps, ?_, haccept, rfl⟩
  rw [hqtick, hncard]

/-- The report is the count of the guest when the printed number is what the longer suffix
leaves. -/
theorem reportsCount_iff_printedGood (hsetup : setup H files argv = .ok u)
    (hmain : main E H files argv = .ok out) (hreplay : u.args.replay = false)
    (hsign : Signer E H) (hfree : CollisionFree E u) (hseeds : DistinctSeeds u)
    (harb : u.series.arb.pub = E.arbitratorPubkey) :
    ReportsCount E out ↔ (goodCommits u.args : Int) = printedGood u.args := by
  obtain ⟨bytes, fx, q, r, hbytes, hparse, hsteps, hncard, haccept, hgood⟩ :=
    guest_of_main hsetup hmain hreplay hsign hfree hseeds harb
  rw [← hgood]
  constructor
  · rintro ⟨bytes', fx', q', r', hbytes', hparse', hsteps', hncard', -⟩
    obtain rfl : bytes' = bytes := Subtype.ext (hbytes'.trans hbytes.symm)
    obtain rfl : fx' = fx := Fallible.pure_inj.mp (hparse'.symm.trans hparse)
    have hq := hsteps'.queryValid.parses.symm.trans hsteps.queryValid.parses
    cases hq
    rw [← hncard', hncard]
  · intro heq
    refine ⟨bytes, fx, q, r, hbytes, hparse, hsteps, ?_, ?_⟩
    · rw [hncard, heq]
    · rw [haccept, ← heq, Nat.cast_le]

/-- **When the report is the count of the guest.** The file always passes steps 1 to 3. -/
theorem reportsCount_iff (E : Externs) (H : StockHost) (files : CString → Option Bytes)
    (argv : List CString) (u : Setup) (out : Output) (hsetup : setup H files argv = .ok u)
    (hmain : main E H files argv = .ok out) (hreplay : u.args.replay = false)
    (hsign : Signer E H) (hfree : CollisionFree E u) (hseeds : DistinctSeeds u)
    (harb : u.series.arb.pub = E.arbitratorPubkey) :
    (∃ (bytes : Rust.Buffer) (fx : Fixture) (q r : Tx), bytes.val = out.file ∧
      parse bytes = pure fx ∧ FixtureSteps E fx q r) ∧
    (ReportsCount E out ↔ u.args.badCommits = 0 ∨ u.args.wrongDigest = 0
      ∨ u.args.badCommits = u.args.commits ∨ u.args.wrongDigest = u.args.commits) := by
  obtain ⟨bytes, fx, q, r, hbytes, hparse, hsteps, -⟩ :=
    guest_of_main hsetup hmain hreplay hsign hfree hseeds harb
  refine ⟨⟨bytes, fx, q, r, hbytes, hparse, hsteps⟩, ?_⟩
  rw [reportsCount_iff_printedGood hsetup hmain hreplay hsign hfree hseeds harb]
  exact printedGood_eq_iff u.args

end Report

/-! ## A small run -/

/-- The setup of seed files with one seed a line. -/
theorem setup_of_seeds {H : StockHost} {files : CString → Option Bytes} {argv : List CString}
    {o : Options} {a : Args} {seeds : List Bytes} {arbSeed : Bytes}
    (hparse : parseArgs argv .default = .ok o) (hcheck : checkArgs o = .ok a)
    (hfile : files a.seeds = some (seedFile seeds)) (hseeds : ∀ s ∈ seeds, IsSeed s)
    (hlen : (seeds.map (deriveSeed H)).length = numberOfComputors)
    (harbFile : files a.arbSeed = some (seedFile [arbSeed])) (harb : IsSeed arbSeed)
    (huser : IsSeed a.userSeed) : setup H files argv
      = .ok (setupOf a (vectorOf (seeds.map (deriveSeed H)) hlen) (deriveSeed H arbSeed)
          (deriveSeed H a.userSeed)) := by
  have hmax : seeds.length ≤ numberOfComputors := by
    rw [List.length_map] at hlen
    exact Nat.le_of_eq hlen
  have harbs : ∀ s ∈ [arbSeed], IsSeed s := by
    intro s hs
    rw [List.mem_singleton.mp hs]
    exact harb
  rw [setup, hparse, Rust.ok_bind, hcheck, Rust.ok_bind, readSeeds_seedFile hseeds hfile hmax,
    Rust.ok_bind, require_of hlen, Rust.ok_bind]
  dsimp only
  rw [readSeeds_seedFile harbs harbFile (Nat.le_refl 1), Rust.ok_bind]
  show (derive H a.userSeed >>= _) = _
  rw [derive_seed huser, Rust.ok_bind]
  rfl

/-- A host whose keys are the first 32 letters of a seed. -/
def demoHost : StockHost where
  kangarooTwelve b := ⟨(b ++ List.replicate 32 0).take 32, by
    rw [List.length_take, List.length_append, List.length_replicate]
    omega⟩
  publicKey sub := sub
  sign _ _ _ := ByteVec.zero 64

/-- The seed of a computor: its index in two letters, and 53 letters `a`. -/
def demoSeed (i : Fin numberOfComputors) : Bytes :=
  .ofNat (0x61 + i.val / 26) :: .ofNat (0x61 + i.val % 26) :: List.replicate 53 0x61

def demoSeeds : List Bytes := List.ofFn demoSeed

/-- The seed of the arbitrator. -/
def arbitratorSeed : Bytes := List.replicate 55 0x7a

/-- Hash values that spell the length of the string, and a verifier that looks at byte 7. -/
def reportExterns : Externs where
  qubicK12 b := ⟨ofNat 32 b.length, length_ofNat 32 _⟩
  fourqVerify _ sig _ := sig.val[7]? == some 0
  arbitratorPubkey := (deriveSeed demoHost arbitratorSeed).key.pub
  sort := Search.KeySort.mergeSort Bytes UInt16

/-- A literal on the command line. -/
def arg (s : String) (h : 0 ∉ ascii s := by decide) : CString := ⟨ascii s, h⟩

/-- Ten bad commits and ten with a wrong digest, of 500. -/
def demoArgv : List CString :=
  [arg "--seeds", arg "computors", arg "--arbitrator-seed", arg "arbitrator", arg "--epoch",
    arg "999", arg "--message", arg "ZK", arg "--commits", arg "500", arg "--bad-commits", arg "10",
    arg "--wrong-digest", arg "10", arg "--out", arg "fixture"]

def demoArgs : Args where
  seeds := arg "computors"
  arbSeed := arg "arbitrator"
  message := arg "ZK"
  out := arg "fixture"
  userSeed := List.replicate 55 0x61
  epoch := 999
  commits := 500
  badCommits := 10
  wrongDigest := 10
  revealBy := 0
  queryTick := 1000000
  commitTick := 1000004
  revealTick := 1000007
  iface := 0
  timeoutMs := 60000
  replay := false
  shuffle := false
  epoch_range := by decide
  commits_le := by decide
  suffixes_le := by decide
  revealBy_lt := by decide
  ticks_le := by decide
  query_lt_commit := by decide
  message_range := by decide

/-- The seed files. -/
def demoFiles (path : CString) : Option Bytes :=
  if path = arg "computors" then some (seedFile demoSeeds)
  else if path = arg "arbitrator" then some (seedFile [arbitratorSeed])
  else none

theorem length_demoSeeds : (demoSeeds.map (deriveSeed demoHost)).length = numberOfComputors := by
  rw [List.length_map, demoSeeds, List.length_ofFn]

def demoSetup : Setup :=
  setupOf demoArgs (vectorOf _ length_demoSeeds) (deriveSeed demoHost arbitratorSeed)
    (deriveSeed demoHost demoArgs.userSeed)

theorem isLower_letter {n : Nat} (h : n < 26) : isLower (.ofNat (0x61 + n)) = true := by
  have hnat : (UInt8.ofNat (0x61 + n)).toNat = 0x61 + n := by
    rw [UInt8.toNat_ofNat']
    omega
  rw [isLower, Bool.and_eq_true, decide_eq_true_eq, decide_eq_true_eq, UInt8.le_iff_toNat_le,
    UInt8.le_iff_toNat_le, hnat]
  show 0x61 ≤ 0x61 + n ∧ 0x61 + n ≤ 0x7a
  omega

theorem isSeed_replicate {c : UInt8} (hc : isLower c = true) : IsSeed (List.replicate 55 c) := by
  refine ⟨List.length_replicate, ?_⟩
  intro b hb
  rw [List.eq_of_mem_replicate hb]
  exact hc

theorem isSeed_demoSeed (i : Fin numberOfComputors) : IsSeed (demoSeed i) := by
  have hi : i.val / 26 < 26 := Nat.div_lt_of_lt_mul i.isLt
  refine ⟨rfl, ?_⟩
  intro c hc
  rcases List.mem_cons.mp hc with rfl | hc
  · exact isLower_letter hi
  · rcases List.mem_cons.mp hc with rfl | hc
    · exact isLower_letter (Nat.mod_lt _ (by decide))
    · rw [List.eq_of_mem_replicate hc]
      decide

theorem setup_demo : setup demoHost demoFiles demoArgv = .ok demoSetup := by
  refine setup_of_seeds (o := demoArgs.options) (by decide +kernel) (checkArgs_options demoArgs)
    rfl ?_ length_demoSeeds rfl ?_ ?_
  · intro s hs
    obtain ⟨i, rfl⟩ := (List.mem_ofFn' _ _).mp hs
    exact isSeed_demoSeed i
  · exact isSeed_replicate rfl
  · exact isSeed_replicate rfl

theorem get_vectorOf_ofFn {α β : Type} {n : Nat} (f : Fin n → α) (g : α → β)
    (h : ((List.ofFn f).map g).length = n) (i : Fin n) :
    (vectorOf ((List.ofFn f).map g) h).get i = g (f i) := by
  rw [get_vectorOf, List.get_eq_getElem, List.getElem_map, List.getElem_ofFn]
  rfl

theorem get_demoSeeds (i : Fin numberOfComputors) :
    (vectorOf _ length_demoSeeds).get i = deriveSeed demoHost (demoSeed i) :=
  get_vectorOf_ofFn demoSeed (deriveSeed demoHost) length_demoSeeds i

/-- The key of a computor starts with its index. -/
theorem pub_demoSeed (i : Fin numberOfComputors) :
    (deriveSeed demoHost (demoSeed i)).key.pub.val
      = .ofNat (i.val / 26) :: .ofNat (i.val % 26) :: List.replicate 30 0 := by
  have hletter : ∀ n : Nat, UInt8.ofNat (0x61 + n) - 0x61 = .ofNat n := by
    intro n
    rw [UInt8.ofNat_add, UInt8.add_comm]
    exact UInt8.add_sub_cancel _ _
  show (UInt8.ofNat (0x61 + i.val / 26) - 0x61) :: (UInt8.ofNat (0x61 + i.val % 26) - 0x61)
    :: List.replicate 30 0 = _
  rw [hletter, hletter]

theorem demoSeed_inj {i j : Fin numberOfComputors}
    (h : (deriveSeed demoHost (demoSeed i)).key.pub = (deriveSeed demoHost (demoSeed j)).key.pub) :
    i = j := by
  have hval := congrArg Subtype.val h
  rw [pub_demoSeed, pub_demoSeed, List.cons.injEq, List.cons.injEq] at hval
  obtain ⟨hdiv, hmod, -⟩ := hval
  have hi : i.val / 26 < 26 := Nat.div_lt_of_lt_mul i.isLt
  have hj : j.val / 26 < 26 := Nat.div_lt_of_lt_mul j.isLt
  have hdiv' := congrArg UInt8.toNat hdiv
  have hmod' := congrArg UInt8.toNat hmod
  rw [UInt8.toNat_ofNat', UInt8.toNat_ofNat'] at hdiv' hmod'
  apply Fin.ext
  omega

theorem comp_demoSetup (i : Fin numberOfComputors) :
    demoSetup.series.comp.get i = (deriveSeed demoHost (demoSeed i)).key := by
  rw [← get_demoSeeds]
  exact get_map _ _ i

theorem seeds_demoSetup (i : Fin numberOfComputors) : demoSetup.seeds.get i = demoSeed i := by
  refine (get_map _ _ i).trans ?_
  rw [get_demoSeeds]
  rfl

theorem signer_demo : Signer reportExterns demoHost where
  accepts _ _ := rfl
  rejects _ _ := rfl

theorem collisionFree_demo : CollisionFree reportExterns demoSetup where
  reply := by decide
  keys i j h := by
    rw [comp_demoSetup, comp_demoSetup] at h
    rw [demoSeed_inj h]

theorem distinctSeeds_demo : DistinctSeeds demoSetup := by
  intro i j h
  rw [seeds_demoSetup, seeds_demoSetup] at h
  exact demoSeed_inj (congrArg (fun s => (deriveSeed demoHost s).key.pub) h)

/-- The demo is written. -/
theorem main_demoArgv : ∃ out, main reportExterns demoHost demoFiles demoArgv = .ok out := by
  have h := honest_of_setup setup_demo signer_demo collisionFree_demo distinctSeeds_demo rfl
  obtain ⟨rest, hgenerate, -⟩ := exists_generate h rfl collisionFree_demo.reply
    (rejects_of_setup setup_demo signer_demo)
  exact ⟨_, (main_of_setup setup_demo).trans hgenerate⟩

/-- The report of the demo says 480, and the guest counts 490. -/
theorem report_miscounts : ∃ out, setup demoHost demoFiles demoArgv = .ok demoSetup ∧
    main reportExterns demoHost demoFiles demoArgv = .ok out ∧
      demoSetup.args.replay = false ∧ Signer reportExterns demoHost ∧
        CollisionFree reportExterns demoSetup ∧ DistinctSeeds demoSetup ∧
          demoSetup.series.arb.pub = reportExterns.arbitratorPubkey ∧
            ¬ ReportsCount reportExterns out := by
  obtain ⟨out, hmain⟩ := main_demoArgv
  refine ⟨out, setup_demo, hmain, rfl, signer_demo, collisionFree_demo, distinctSeeds_demo, rfl, ?_⟩
  rw [reportsCount_iff_printedGood setup_demo hmain rfl signer_demo collisionFree_demo
    distinctSeeds_demo rfl]
  show ¬ ((500 - max 10 10 : Nat) : Int) = 500 - 10 - 10 + 0
  decide

/-- The theorem at the demo. -/
theorem reportsCount_iff_demo : ∃ out, main reportExterns demoHost demoFiles demoArgv = .ok out ∧
    (∃ (bytes : Rust.Buffer) (fx : Fixture) (q r : Tx), bytes.val = out.file ∧
      parse bytes = pure fx ∧ FixtureSteps reportExterns fx q r) ∧
    (ReportsCount reportExterns out ↔ demoSetup.args.badCommits = 0 ∨ demoSetup.args.wrongDigest = 0
      ∨ demoSetup.args.badCommits = demoSetup.args.commits
      ∨ demoSetup.args.wrongDigest = demoSetup.args.commits) := by
  obtain ⟨out, hmain⟩ := main_demoArgv
  exact ⟨out, hmain, reportsCount_iff reportExterns demoHost demoFiles demoArgv demoSetup out
    setup_demo hmain rfl signer_demo collisionFree_demo distinctSeeds_demo rfl⟩

end ZkQuorum.GenFixture
