import ZkQuorum.GenFixture.Series

/-!
# Soundness of the guest

What a committed journal means, for a host that may write any six frames.
-/

namespace ZkQuorum.Guest

open LittleEndian Rust Host GenFixture

/-- **Soundness.** If `main` commits a journal, the frames hold: a list of 676
distinct keys for an epoch other than 0, signed by the arbitrator; a query and a
reveal as steps 2 and 3 ask for; and valid commits of 451 distinct computors
among the transactions of the commits frame. The journal is
`epoch | queryId | K12(reply)`. -/
theorem main_sound (E : Externs)
    (packet queryIdBytes queryTx reply commits revealTx journal : Bytes)
    (h : main E [packet, queryIdBytes, queryTx, reply, commits, revealTx] = .ok journal) :
    PacketValid E packet ∧
      ∃ queryId : ByteVec 8, queryId.val = queryIdBytes ∧
        ∃ q, QueryValid E queryTx queryId q ∧
          (∃ r, RevealValid E (pubkeysOf packet) queryId reply revealTx r) ∧
          (∃ indices : Finset Nat, quorum ≤ indices.card ∧ ∀ i ∈ indices,
            i < numberOfComputors ∧ ∃ raw, HoldsRecord commits raw ∧
              ValidCommit E (pubkeysOf packet) queryId q.tick reply raw i) ∧
          journal = journalOf (epochOf packet) queryId (E.qubicK12 reply) := by
  obtain ⟨queryId, rfl, q, r, hsteps⟩ := steps_of_main h
  obtain ⟨sorted, hsorted, hmain⟩ := main_of_steps hsteps
  have hroom : commits.length ≤ isizeMax32 := fits_of_main h _ (by simp)
  rw [hmain commits hroom, bind_eq_ok] at h
  obtain ⟨_, hcommits, hjournal⟩ := h
  obtain ⟨indices, hcard, hvalid⟩ := checkCommits_sound hsorted hcommits
  refine ⟨hsteps.packetValid, queryId, rfl, q, hsteps.queryValid, ⟨r, hsteps.revealValid⟩,
    ⟨indices, hcard, fun i hi => ?_⟩, ?_⟩
  · obtain ⟨raw, hholds, hcommit⟩ := hvalid i hi
    exact ⟨hcommit.lt, raw, hholds, hcommit⟩
  · cases hjournal
    rfl

/-- The demo's journal stands for 451 valid commits in the demo's frame. -/
theorem main_sound_demo :
    let fx := demo.fixture demoExterns everyone
    PacketValid demoExterns fx.computorsPacket ∧
      ∃ queryId : ByteVec 8, queryId.val = ofU64 fx.queryId ∧
        ∃ q, QueryValid demoExterns fx.queryTx queryId q ∧
          (∃ r, RevealValid demoExterns (pubkeysOf fx.computorsPacket) queryId fx.reply
            fx.revealTx r) ∧
          (∃ indices : Finset Nat, quorum ≤ indices.card ∧ ∀ i ∈ indices,
            i < numberOfComputors ∧ ∃ raw, HoldsRecord (commitsFrame fx) raw ∧
              ValidCommit demoExterns (pubkeysOf fx.computorsPacket) queryId q.tick fx.reply
                raw i) ∧
          journalOf 999 (bytesOfU64 demo.queryId) (ByteVec.zero 32)
            = journalOf (epochOf fx.computorsPacket) queryId (demoExterns.qubicK12 fx.reply) :=
  main_sound demoExterns _ _ _ _ _ _ _ main_demo

end ZkQuorum.Guest
