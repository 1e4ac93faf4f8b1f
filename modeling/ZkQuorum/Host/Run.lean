import ZkQuorum.Guest.Outcome
import ZkQuorum.Host.Fixture

/-!
# The guest on a fixture

`to_env` and the guest's frame walker agree, so the outcome of a run on a fixture
is a matter of its steps 1 to 3 and of the set of computors with a valid commit
among its transactions.
-/

namespace ZkQuorum.Host

open LittleEndian Rust Guest

/-- Steps 1 to 3 of the guest statement on a fixture. -/
def FixtureSteps (E : Externs) (fx : Fixture) (q r : Tx) : Prop :=
  Steps E fx.computorsPacket (bytesOfU64 fx.queryId) fx.queryTx fx.reply fx.revealTx q r

/-- The computors with a valid commit in a fixture whose query has this tick. -/
def fixtureCommitters (E : Externs) (fx : Fixture) (queryTick : UInt32) : Set Nat :=
  committers E (pubkeysOf fx.computorsPacket) (bytesOfU64 fx.queryId) queryTick fx.reply
    fx.commitTxs

/-- The host expects the journal the guest lays out. -/
theorem expectedJournal_eq (E : Externs) {fx : Fixture}
    (h : fx.computorsPacket.length = packetSize) :
    expectedJournal E fx = .ok (journalOf (epochOf fx.computorsPacket) (bytesOfU64 fx.queryId)
      (E.qubicK12 fx.reply)) := by
  have hepoch : epoch fx = .ok (epochOf fx.computorsPacket) := by
    rw [epoch, slice_of_le (by decide) (by rw [h]; decide)]
    rfl
  rw [expectedJournal, hepoch]
  exact buildJournal_eq (epochOf fx.computorsPacket) (bytesOfU64 fx.queryId) (E.qubicK12 fx.reply)

/-- The count `commits_frame` writes is the number of transactions. -/
theorem count_commitsFrame {fx : Fixture} (h : (commitsFrame fx).length < 2 ^ 32) :
    (toU32 (ofU32 (UInt32.ofNat fx.commitTxs.length))).toNat = fx.commitTxs.length := by
  have hge := Records.length_encodeAll_ge fx.commitTxs
  have hlen : (commitsFrame fx).length = 4 + (Records.encodeAll fx.commitTxs).length := by
    rw [commitsFrame, List.length_append, length_ofU32]
    rfl
  rw [toU32_ofU32, UInt32.toNat_ofNat', Nat.mod_eq_of_lt (by omega)]

/-- **The run on a fixture that passes steps 1 to 3.** -/
theorem main_toEnv_of_steps {E : Externs} {fx : Fixture} {q r : Tx}
    (h : FixtureSteps E fx q r) (hframe : (commitsFrame fx).length < 2 ^ 31) :
    main E (toEnv fx)
      = if quorum ≤ (fixtureCommitters E fx q.tick).ncard then
          .ok (journalOf (epochOf fx.computorsPacket) (bytesOfU64 fx.queryId)
            (E.qubicK12 fx.reply))
        else .error (.message (quorumNotReached (fixtureCommitters E fx q.tick).ncard)) := by
  obtain ⟨sorted, hsorted, hmain⟩ := main_of_steps h
  have hlt : (commitsFrame fx).length < 2 ^ 32 := Nat.lt_trans hframe (by decide)
  have hcommits := checkCommits_complete E (bytesOfU64 fx.queryId) q.tick fx.reply hsorted
    (length_ofU32 _) (count_commitsFrame hlt) hlt
  refine (hmain (commitsFrame fx) (Nat.le_sub_one_of_lt hframe)).trans ?_
  rw [show commitsFrame fx = _ ++ Records.encodeAll fx.commitTxs from rfl, hcommits]
  by_cases hD : quorum ≤ (fixtureCommitters E fx q.tick).ncard
  · rw [if_pos hD]
    exact congrArg (· >>= _) (if_pos hD)
  · rw [if_neg hD]
    exact congrArg (· >>= _) (if_neg hD)

end ZkQuorum.Host
