import ZkQuorum.GenFixture.Args
import ZkQuorum.Guest.Soundness
import ZkQuorum.Guest.Walk

/-!
# The length of an attested reply

An oracle reply has 1 to 1008 bytes. The guest hashes whatever the reply frame holds: all
that it compares the length with is the input of the reveal transaction, whose size is a
`u16`.

- `main_eq_ok_iff`: the frames for which a journal is committed, by their contents.
- `inputSize_of_attestable`: an attested reply is eight bytes shorter than the reveal
  transaction's `inputSize`.
- **`legal_reply_iff`**: so a reply that is attested is a legal one just when that field
  says so, and every length that the field can give is attested.
-/

namespace ZkQuorum.Guest

open LittleEndian Rust Host GenFixture

/-! ## What the guest accepts -/

/-- The commit transactions that are present in a commits frame. -/
def presentCommits (commits : Bytes) : List Bytes :=
  (Records.readAll (toU32 (commits.take 4)).toNat (commits.drop 4)).1

/-- The guest statement (SPEC) of six frames: steps 1 to 3, and a quorum of computors with a
valid commit. -/
def Attestable (E : Externs) (packet queryIdBytes queryTx reply commits revealTx : Bytes) : Prop :=
  ∃ queryId : ByteVec 8, queryId.val = queryIdBytes ∧ ∃ q r,
    Steps E packet queryId queryTx reply revealTx q r ∧ 4 ≤ commits.length ∧
      quorum ≤ (committers E (pubkeysOf packet) queryId q.tick reply (presentCommits commits)).ncard

section Accept

variable {E : Externs} {packet queryIdBytes queryTx reply commits revealTx pubkeys : Bytes}
  {sorted : List UInt16} {queryId : ByteVec 8} {queryTick : UInt32}

/-- Step 4 on any frame of `u32` length: what is cut short does not matter once the quorum is
there. -/
theorem checkCommits_eq_ok_iff (hs : SortedIndex pubkeys sorted) (hlen : commits.length < 2 ^ 32)
    {u : Unit} :
    checkCommits E pubkeys sorted queryId queryTick (E.qubicK12 reply) reply commits = .ok u ↔
      4 ≤ commits.length ∧
        quorum ≤ (committers E pubkeys queryId queryTick reply (presentCommits commits)).ncard := by
  by_cases h4 : 4 ≤ commits.length
  swap
  · rw [checkCommits, decide_eq_false h4]
    constructor
    · rintro ⟨⟩
    · rintro ⟨hfour, -⟩
      exact absurd hfour h4
  obtain ⟨D, hD⟩ : ∃ D, (committers E pubkeys queryId queryTick reply
    (presentCommits commits)).ncard = D := ⟨_, rfl⟩
  have hcount : (Tally.collect (vote E pubkeys sorted queryId queryTick reply) quorum
      (presentCommits commits) []).length = min quorum D := hD ▸ length_collect_vote hs _
  obtain ⟨tail, htail⟩ : ∃ tail, (Records.readAll (toU32 (commits.take 4)).toNat
    (commits.drop 4)).2 = tail := ⟨_, rfl⟩
  have hloop : commitLoop
      (fun raw seen => checkCommit E raw pubkeys sorted seen queryId queryTick
        (E.qubicK12 reply) reply)
      commits (toU32 (commits.take 4)).toNat 4 (Vector.replicate _ false) 0
        = if quorum ≤ min quorum D then .ok (min quorum D) else atEnd (min quorum D) tail := by
    have hrun := commitLoop_complete (n := (toU32 (commits.take 4)).toNat)
      (checkCommit_judges E queryId queryTick reply hs) hlen h4 marks_init (by decide)
    rw [← hcount, ← htail]
    refine hrun.trans ?_
    cases (Records.readAll (toU32 (commits.take 4)).toNat (commits.drop 4)).2 with
    | ok rest => rfl
    | error cut => rfl
  have hslice := slice_of_le (s := commits) (Nat.zero_le 4) h4
  rw [List.drop_zero, Nat.sub_zero] at hslice
  rw [checkCommits, decide_eq_true h4, assert_true, ok_bind, hslice, ok_bind, hD]
  simp only [hloop, h4, true_and]
  by_cases hquorum : quorum ≤ D
  · rw [Nat.min_eq_left hquorum, if_pos (Nat.le_refl _), ok_bind, if_neg (Nat.lt_irrefl _)]
    exact ⟨fun _ => hquorum, fun _ => rfl⟩
  · have hlt : D < quorum := Nat.not_le.mp hquorum
    rw [Nat.min_eq_right (Nat.le_of_lt hlt), if_neg hquorum]
    refine ⟨fun h => ?_, fun h => absurd h hquorum⟩
    -- the records end before the quorum is there
    obtain ⟨count, hend, hassert⟩ := bind_eq_ok.mp h
    obtain ⟨-, rfl⟩ := atEnd_eq_ok.mp hend
    rw [if_pos hlt] at hassert
    cases hassert

/-- **The frames that are attested.** The guest has room for the commits, and its statement holds
of the frames. -/
theorem main_eq_ok_iff :
    (∃ journal, main E [packet, queryIdBytes, queryTx, reply, commits, revealTx] = .ok journal) ↔
      commits.length ≤ isizeMax32 ∧
        Attestable E packet queryIdBytes queryTx reply commits revealTx := by
  have hlt : commits.length ≤ isizeMax32 → commits.length < 2 ^ 32 := by
    unfold isizeMax32
    omega
  constructor
  · rintro ⟨journal, hmain⟩
    have hroom : commits.length ≤ isizeMax32 := fits_of_main hmain _ (by simp)
    obtain ⟨queryId, rfl, q, r, hsteps⟩ := steps_of_main hmain
    obtain ⟨sorted, hsorted, heq⟩ := main_of_steps hsteps
    rw [heq commits hroom, bind_eq_ok] at hmain
    obtain ⟨_, hcommits, -⟩ := hmain
    exact ⟨hroom, queryId, rfl, q, r, hsteps,
      (checkCommits_eq_ok_iff hsorted (hlt hroom)).mp hcommits⟩
  · rintro ⟨hroom, queryId, rfl, q, r, hsteps, hcommits⟩
    obtain ⟨sorted, hsorted, heq⟩ := main_of_steps hsteps
    have hok := (checkCommits_eq_ok_iff (u := ()) hsorted (hlt hroom)).mpr hcommits
    rw [heq commits hroom, hok]
    exact ⟨_, rfl⟩

/-- The reveal transaction says how long the reply is. -/
theorem inputSize_of_attestable
    (h : Attestable E packet queryIdBytes queryTx reply commits revealTx) :
    inputSizeField revealTx = 8 + reply.length := by
  obtain ⟨queryId, -, q, r, hsteps, -⟩ := h
  obtain ⟨hw, hr⟩ := parseTx_eq_some.mp hsteps.revealValid.parses
  have hinput := congrArg List.length hsteps.revealValid.input
  rw [hr, length_input hw, List.length_append, queryId.property] at hinput
  exact hinput

end Accept

/-! ## Every length -/

/-- The series of the demo with a reply of `n` zero bytes. -/
def demoOfLength (n : Nat) : Series := { demo with message := List.replicate n 0 }

theorem demoOfLength_honest {n : Nat} (h : n ≤ 65527) : (demoOfLength n).Honest demoExterns :=
  { demo_honest with
    message := by
      show 8 + (List.replicate n (0 : UInt8)).length < 2 ^ 16
      rw [List.length_replicate]
      omega }

/-- A reply of any length that fits the reveal transaction is attested. -/
theorem main_demoOfLength {n : Nat} (h : n ≤ 65527) :
    main demoExterns (toEnv ((demoOfLength n).fixture demoExterns everyone))
      = .ok (journalOf 999 (bytesOfU64 demo.queryId) (ByteVec.zero 32)) :=
  Series.main_of_honest (demoOfLength_honest h)
    (show demo.queryTick.toNat = demo.queryId.toNat / 2 ^ 31 by decide) quorum_le_everyone
    (by rw [everyone, List.length_finRange]; decide)

/-- **When an attested reply is legal**, for any six frames. The reply of an attested run has 1
to 1008 bytes just when the `inputSize` of the reveal transaction is 9 to 1016; nothing else in
the guest bounds it, and each length up to 65527 is attested in some run. -/
theorem legal_reply_iff (E : Externs)
    (packet queryIdBytes queryTx reply commits revealTx : Bytes) :
    (((∃ journal, main E [packet, queryIdBytes, queryTx, reply, commits, revealTx] = .ok journal) →
        1 ≤ reply.length ∧ reply.length ≤ maxReply) ↔
      (9 ≤ inputSizeField revealTx ∧ inputSizeField revealTx ≤ 1016) ∨
        ¬ (commits.length ≤ isizeMax32 ∧
          Attestable E packet queryIdBytes queryTx reply commits revealTx)) ∧
    ∀ n, n ≤ 65527 → ∃ (E' : Externs) (fx : Fixture) (journal : Bytes),
      fx.reply.length = n ∧ main E' (toEnv fx) = .ok journal := by
  refine ⟨?_, fun n hn => ⟨demoExterns, (demoOfLength n).fixture demoExterns everyone, _,
    List.length_replicate, main_demoOfLength hn⟩⟩
  rw [main_eq_ok_iff]
  unfold maxReply
  by_cases h : commits.length ≤ isizeMax32 ∧
      Attestable E packet queryIdBytes queryTx reply commits revealTx
  · have hsize := inputSize_of_attestable h.2
    simp only [h, and_self, true_implies, not_true_eq_false, or_false]
    omega
  · exact ⟨fun _ => Or.inr h, fun _ hatt => absurd hatt h⟩

/-- The demo with an empty reply is attested. -/
theorem empty_reply_attested :
    let fx := (demoOfLength 0).fixture demoExterns everyone
    ¬ ((∃ journal, main demoExterns [fx.computorsPacket, ofU64 fx.queryId, fx.queryTx, fx.reply,
        commitsFrame fx, fx.revealTx] = .ok journal) →
      1 ≤ fx.reply.length ∧ fx.reply.length ≤ maxReply) := by
  intro fx hlegal
  have hreply : fx.reply.length = 0 := List.length_replicate
  have hlong := (hlegal ⟨_, main_demoOfLength (Nat.zero_le _)⟩).1
  omega

/-- The theorem at the demo with a reply of 24 bytes. -/
theorem legal_reply_iff_demo :
    let fx := (demoOfLength 24).fixture demoExterns everyone
    ((∃ journal, main demoExterns [fx.computorsPacket, ofU64 fx.queryId, fx.queryTx, fx.reply,
        commitsFrame fx, fx.revealTx] = .ok journal) →
      1 ≤ fx.reply.length ∧ fx.reply.length ≤ maxReply) ↔
        (9 ≤ inputSizeField fx.revealTx ∧ inputSizeField fx.revealTx ≤ 1016) ∨
          ¬ ((commitsFrame fx).length ≤ isizeMax32 ∧
            Attestable demoExterns fx.computorsPacket (ofU64 fx.queryId) fx.queryTx fx.reply
              (commitsFrame fx) fx.revealTx) :=
  (legal_reply_iff demoExterns _ _ _ _ _ _).1

end ZkQuorum.Guest
