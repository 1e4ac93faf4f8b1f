import ZkQuorum.GenFixture.Series

/-!
# Completeness of the guest, and its agreement with the host

The outcome of a run on a fixture is a count over a set: it does not depend on
the order of the commit transactions, on duplicates, or on transactions that are
not valid commits.
-/

namespace ZkQuorum.Host

open LittleEndian Rust Guest GenFixture

/-- A fixture with other commit transactions. -/
def Fixture.withCommits (fx : Fixture) (commitTxs : List Bytes) : Fixture := { fx with commitTxs }

/-- A fixture that fails steps 1 to 3 fails the same way with any commits. -/
theorem main_toEnv_of_not_steps {E : Externs} {fx : Fixture}
    (h : ∀ q r, ¬ FixtureSteps E fx q r) :
    ∃ panic, ∀ commitTxs, (commitsFrame (fx.withCommits commitTxs)).length < 2 ^ 31 →
      main E (toEnv (fx.withCommits commitTxs)) = .error panic := by
  obtain ⟨panic, hpanic⟩ := main_of_not_steps h
  exact ⟨panic, fun commitTxs hframe => hpanic _ (Nat.le_sub_one_of_lt hframe)⟩

/-- Two lists with the same valid commits have the same committers. -/
theorem committers_congr {E : Externs} {pubkeys : Bytes} {queryId : ByteVec 8}
    {queryTick : UInt32} {reply : Bytes} {txs txs' : List Bytes}
    (h : ∀ raw i, ValidCommit E pubkeys queryId queryTick reply raw i → (raw ∈ txs ↔ raw ∈ txs')) :
    committers E pubkeys queryId queryTick reply txs
      = committers E pubkeys queryId queryTick reply txs' := by
  ext i
  constructor
  · rintro ⟨raw, hraw, hvalid⟩
    exact ⟨raw, (h raw i hvalid).mp hraw, hvalid⟩
  · rintro ⟨raw, hraw, hvalid⟩
    exact ⟨raw, (h raw i hvalid).mpr hraw, hvalid⟩

/-- More transactions, more committers. -/
theorem ncard_committers_mono {E : Externs} {pubkeys : Bytes} {queryId : ByteVec 8}
    {queryTick : UInt32} {reply : Bytes} {txs txs' : List Bytes} (h : txs ⊆ txs') :
    (committers E pubkeys queryId queryTick reply txs).ncard
      ≤ (committers E pubkeys queryId queryTick reply txs').ncard := by
  refine Set.ncard_le_ncard ?_ ?_
  · rintro i ⟨raw, hraw, hvalid⟩
    exact ⟨raw, h hraw, hvalid⟩
  · exact (Set.finite_lt_nat numberOfComputors).subset fun i ⟨_, _, hi⟩ => hi.lt

/-- **Completeness and host/guest agreement.** On a fixture whose commits frame
fits in a vector of the guest:

- if steps 1 to 3 hold, the run commits the journal the host expects when the
  number `D` of computors with a valid commit reaches the quorum, and panics
  with `D` otherwise;
- two lists with the same valid commits have the same outcome, in any order, with
  any duplicates and with anything else in between;
- adding transactions keeps an accepted fixture accepted. -/
theorem main_toEnv (E : Externs) (fx : Fixture) (hframe : (commitsFrame fx).length < 2 ^ 31) :
    (∀ q r, FixtureSteps E fx q r →
      ∃ journal, expectedJournal E fx = .ok journal ∧
        main E (toEnv fx)
          = if quorum ≤ (fixtureCommitters E fx q.tick).ncard then .ok journal
            else .error (.message (quorumNotReached (fixtureCommitters E fx q.tick).ncard))) ∧
    (∀ commitTxs, (commitsFrame (fx.withCommits commitTxs)).length < 2 ^ 31 →
      (∀ q r, FixtureSteps E fx q r → ∀ raw i,
        ValidCommit E (pubkeysOf fx.computorsPacket) (bytesOfU64 fx.queryId) q.tick fx.reply raw i →
          (raw ∈ fx.commitTxs ↔ raw ∈ commitTxs)) →
      main E (toEnv (fx.withCommits commitTxs)) = main E (toEnv fx)) ∧
    (∀ commitTxs journal, (commitsFrame (fx.withCommits commitTxs)).length < 2 ^ 31 →
      fx.commitTxs ⊆ commitTxs → main E (toEnv fx) = .ok journal →
      main E (toEnv (fx.withCommits commitTxs)) = .ok journal) := by
  refine ⟨fun q r h => ?_, fun commitTxs hframe' hsame => ?_,
    fun commitTxs journal hframe' hsub hmain => ?_⟩
  · exact ⟨_, expectedJournal_eq E h.packetValid.size, main_toEnv_of_steps h hframe⟩
  · by_cases hsteps : ∃ q r, FixtureSteps E fx q r
    · obtain ⟨q, r, h⟩ := hsteps
      have h' : FixtureSteps E (fx.withCommits commitTxs) q r := h
      have hcommitters : fixtureCommitters E (fx.withCommits commitTxs) q.tick
          = fixtureCommitters E fx q.tick := (committers_congr (hsame q r h)).symm
      rw [main_toEnv_of_steps h hframe, main_toEnv_of_steps h' hframe', hcommitters]
      rfl
    · -- the failure comes before step 4, so no commit is looked at
      obtain ⟨panic, hpanic⟩ := main_toEnv_of_not_steps
        (fun q r h => hsteps ⟨q, r, h⟩ : ∀ q r, ¬ FixtureSteps E fx q r)
      exact (hpanic commitTxs hframe').trans (hpanic fx.commitTxs hframe).symm
  · obtain ⟨queryId, hid, q, r, h⟩ := steps_of_main hmain
    obtain rfl : queryId = bytesOfU64 fx.queryId := Subtype.ext hid
    have h' : FixtureSteps E (fx.withCommits commitTxs) q r := h
    have hD : quorum ≤ (fixtureCommitters E fx q.tick).ncard := by
      by_contra hlt
      rw [main_toEnv_of_steps h hframe, if_neg hlt] at hmain
      cases hmain
    have hD' : quorum ≤ (fixtureCommitters E (fx.withCommits commitTxs) q.tick).ncard :=
      Nat.le_trans hD (ncard_committers_mono hsub)
    rw [main_toEnv_of_steps h' hframe', if_pos hD']
    rw [main_toEnv_of_steps h hframe, if_pos hD] at hmain
    exact hmain

/-- The demo with every commit sent twice, once in reverse order, is accepted with
the journal of the demo. -/
theorem main_toEnv_demo :
    main demoExterns (toEnv ((demo.fixture demoExterns everyone).withCommits
        ((everyone.reverse ++ everyone).map (demo.commitTx demoExterns))))
      = .ok (journalOf 999 (bytesOfU64 demo.queryId) (ByteVec.zero 32)) := by
  have hlen : everyone.length = numberOfComputors := List.length_finRange
  have hframe : (commitsFrame (demo.fixture demoExterns everyone)).length < 2 ^ 31 := by
    rw [Series.length_commitsFrame, hlen]
    decide
  have htwice : (commitsFrame (demo.fixture demoExterns (everyone.reverse ++ everyone))).length
      < 2 ^ 31 := by
    rw [Series.length_commitsFrame, List.length_append, List.length_reverse, hlen]
    decide
  have hsub : everyone.map (demo.commitTx demoExterns)
      ⊆ (everyone.reverse ++ everyone).map (demo.commitTx demoExterns) :=
    List.map_subset _ (List.subset_append_right _ _)
  have hdemo := main_demo
  revert hframe htwice hsub hdemo
  generalize everyone = all
  intro hframe htwice hsub hdemo
  exact (main_toEnv demoExterns (demo.fixture demoExterns all) hframe).2.2 _ _ htwice hsub hdemo

/-- The demo with a transaction of `big` bytes behind the commits. -/
def demoWith (committing : List (Fin numberOfComputors)) (big : Bytes) : Fixture :=
  (demo.fixture demoExterns committing).withCommits
    (committing.map (demo.commitTx demoExterns) ++ [big])

theorem length_commitsFrame_demoWith (committing : List (Fin numberOfComputors)) (big : Bytes) :
    (commitsFrame (demoWith committing big)).length
      = 8 + committing.length * 220 + big.length := by
  have hrecords : ∀ fx : Fixture, (commitsFrame fx).length
      = 4 + (Records.encodeAll fx.commitTxs).length := by
    intro fx
    rw [commitsFrame, List.length_append, length_ofU32]
    rfl
  have hdemo := Series.length_commitsFrame (E := demoExterns) (s := demo) committing
  rw [hrecords] at hdemo
  rw [hrecords]
  show 4 + (Records.encodeAll ((demo.fixture demoExterns committing).commitTxs ++ [big])).length = _
  rw [Records.encodeAll_append, Records.encodeAll_cons, List.length_append, List.length_append,
    Records.length_encode]
  show 4 + (_ + (4 + big.length + 0)) = _
  omega

/-- Every computor that commits is counted, and the guest cannot read the frame. -/
theorem main_demoWith {committing : List (Fin numberOfComputors)} {big : Bytes}
    (hquorum : quorum ≤ committing.toFinset.card) (hbig : 2 ^ 31 ≤ big.length) :
    (∃ q r, FixtureSteps demoExterns (demoWith committing big) q r ∧
        quorum ≤ (fixtureCommitters demoExterns (demoWith committing big) q.tick).ncard) ∧
      main demoExterns (toEnv (demoWith committing big))
        = .error (.message "capacity overflow") := by
  constructor
  · obtain ⟨q, r, hsteps, hqtick⟩ :=
      Series.fixtureSteps_of_honest demo_honest (by decide) committing
    have hD := Nat.le_trans hquorum (Series.card_le_committers demo_honest committing)
    rw [← hqtick] at hD
    exact ⟨q, r, hsteps, Nat.le_trans hD (ncard_committers_mono (List.subset_append_left _ _))⟩
  · apply main_of_not_fits
    intro hfits
    have hroom := (fits_iff.mp hfits).1
    rw [length_commitsFrame_demoWith] at hroom
    unfold isizeMax32 at hroom
    omega

/-- A fixture of the demo whose commits frame fits in 32 bits, but not in a vector of the guest:
676 computors have a valid commit, and the guest panics while it reads the frame. -/
theorem main_toEnv_capacity_overflow :
    let fx := demoWith everyone (List.replicate (2 ^ 31) 0)
    (commitsFrame fx).length < 2 ^ 32 ∧
      (∃ q r, FixtureSteps demoExterns fx q r ∧
        quorum ≤ (fixtureCommitters demoExterns fx q.tick).ncard) ∧
      main demoExterns (toEnv fx) = .error (.message "capacity overflow") := by
  have hbig : (List.replicate (2 ^ 31) (0 : UInt8)).length = 2 ^ 31 := List.length_replicate
  have hlen : everyone.length = 676 := List.length_finRange
  have hquorum := quorum_le_everyone
  generalize List.replicate (2 ^ 31) (0 : UInt8) = big at hbig
  generalize everyone = all at hlen hquorum
  intro fx
  refine ⟨?_, main_demoWith hquorum (Nat.le_of_eq hbig.symm)⟩
  show (commitsFrame (demoWith all big)).length < 2 ^ 32
  rw [length_commitsFrame_demoWith, hlen, hbig]
  decide

end ZkQuorum.Host
