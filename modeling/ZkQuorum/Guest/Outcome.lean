import ZkQuorum.Guest.Steps

/-!
# The outcome of a run

Steps 1 to 3 read five of the six frames, step 4 the commits frame.

- `main_eq_checkFrames`: a run reads six frames, and panics when one of them is
  longer than a vector of the guest can be;
- `steps_of_main`: a run that commits a journal has passed steps 1 to 3 and step 4;
- `main_of_steps`: a run that passes steps 1 to 3 ends as step 4 ends;
- `main_of_not_steps`: a run that fails steps 1 to 3 does not look at the commits;
- `checkCommits_sound` / `checkCommits_complete`: what step 4 decides about the
  commits frame.
-/

namespace ZkQuorum.Guest

open LittleEndian Rust

/-- Steps 1 to 3 of the guest statement. -/
structure Steps (E : Externs) (packet : Bytes) (queryId : ByteVec 8)
    (queryTx reply revealTx : Bytes) (q r : Tx) : Prop where
  packetValid : PacketValid E packet
  queryValid : QueryValid E queryTx queryId q
  revealValid : RevealValid E (pubkeysOf packet) queryId reply revealTx r

/-! ## The frames -/

theorem readFrame_bind {α : Type} (frame : Bytes) (frames : List Bytes)
    (f : Bytes × List Bytes → Rust α) : (readFrame (frame :: frames) >>= f)
      = if frame.length ≤ isizeMax32 then f (frame, frames) else panicWith "capacity overflow" := by
  rw [readFrame, bind_assoc, allocate32_bind]
  rfl

theorem readFrame_eq_ok {frames rest : List Bytes} {frame : Bytes} :
    readFrame frames = .ok (frame, rest) ↔ frames = frame :: rest ∧ frame.length ≤ isizeMax32 := by
  cases frames with
  | nil => exact iff_of_false (fun h => nomatch h) (fun h => nomatch h.1)
  | cons first others =>
    rw [← bind_pure (readFrame _), readFrame_bind]
    constructor
    · intro h
      split at h
      · rename_i hroom
        cases h
        exact ⟨rfl, hroom⟩
      · cases h
    · rintro ⟨heq, hroom⟩
      cases heq
      exact if_pos hroom

/-- The guest has room for each of the frames. -/
def Fits (frames : List Bytes) : Prop := ∀ frame ∈ frames, frame.length ≤ isizeMax32

instance (frames : List Bytes) : Decidable (Fits frames) :=
  inferInstanceAs (Decidable (∀ frame ∈ frames, _))

section Main

variable {E : Externs} {packet queryIdBytes queryTx reply commits revealTx : Bytes}
  {queryId : ByteVec 8} {q r : Tx}

/-- **A run reads six frames.** It does not look at more, and it panics when one of them is too
long for a vector. -/
theorem main_eq_checkFrames (E : Externs)
    (packet queryIdBytes queryTx reply commits revealTx : Bytes) (rest : List Bytes) :
    main E (packet :: queryIdBytes :: queryTx :: reply :: commits :: revealTx :: rest)
      = if Fits [packet, queryIdBytes, queryTx, reply, commits, revealTx] then
          checkFrames E packet queryIdBytes queryTx reply commits revealTx
        else panicWith "capacity overflow" := by
  have hall : Fits [packet, queryIdBytes, queryTx, reply, commits, revealTx] ↔
      packet.length ≤ isizeMax32 ∧ queryIdBytes.length ≤ isizeMax32 ∧
        queryTx.length ≤ isizeMax32 ∧ reply.length ≤ isizeMax32 ∧
          commits.length ≤ isizeMax32 ∧ revealTx.length ≤ isizeMax32 := by
    simp only [Fits, List.forall_mem_cons, List.not_mem_nil, false_implies, implies_true, and_true]
  simp only [main, readFrame_bind, hall]
  by_cases h : packet.length ≤ isizeMax32 ∧ queryIdBytes.length ≤ isizeMax32 ∧
      queryTx.length ≤ isizeMax32 ∧ reply.length ≤ isizeMax32 ∧
        commits.length ≤ isizeMax32 ∧ revealTx.length ≤ isizeMax32
  · obtain ⟨h1, h2, h3, h4, h5, h6⟩ := h
    simp only [h1, h2, h3, h4, h5, h6, and_self, if_true]
  · rw [if_neg h]
    -- the first frame that is too long ends the run
    split_ifs with h1 h2 h3 h4 h5 h6
    · exact absurd ⟨h1, h2, h3, h4, h5, h6⟩ h
    all_goals rfl

theorem main_of_fits (h : Fits [packet, queryIdBytes, queryTx, reply, commits, revealTx]) :
    main E [packet, queryIdBytes, queryTx, reply, commits, revealTx]
      = checkFrames E packet queryIdBytes queryTx reply commits revealTx :=
  (main_eq_checkFrames E _ _ _ _ _ _ []).trans (if_pos h)

theorem main_of_not_fits (h : ¬ Fits [packet, queryIdBytes, queryTx, reply, commits, revealTx]) :
    main E [packet, queryIdBytes, queryTx, reply, commits, revealTx]
      = panicWith "capacity overflow" :=
  (main_eq_checkFrames E _ _ _ _ _ _ []).trans (if_neg h)

theorem fits_of_main {journal : Bytes}
    (h : main E [packet, queryIdBytes, queryTx, reply, commits, revealTx] = .ok journal) :
    Fits [packet, queryIdBytes, queryTx, reply, commits, revealTx] := by
  by_contra hlong
  rw [main_of_not_fits hlong] at h
  cases h

theorem fits_iff : Fits [packet, queryIdBytes, queryTx, reply, commits, revealTx] ↔
    commits.length ≤ isizeMax32 ∧ Fits [packet, queryIdBytes, queryTx, reply, revealTx] := by
  simp only [Fits, List.forall_mem_cons, List.not_mem_nil, false_implies, implies_true, and_true]
  tauto

/-- Steps 1 to 3 bound every frame but the one of the commits. -/
theorem Steps.fits (h : Steps E packet queryId queryTx reply revealTx q r)
    (hcommits : commits.length ≤ isizeMax32) :
    Fits [packet, queryId.val, queryTx, reply, commits, revealTx] := by
  have hpacket := h.packetValid.size
  have hid := queryId.property
  obtain ⟨hquery, rfl⟩ := parseTx_eq_some.mp h.queryValid.parses
  obtain ⟨hreveal, rfl⟩ := parseTx_eq_some.mp h.revealValid.parses
  have hqinput := length_input_lt h.queryValid.parses
  have hrinput := length_input_lt h.revealValid.parses
  have hreply := congrArg List.length h.revealValid.input
  rw [List.length_append] at hreply
  rw [length_input hquery] at hqinput
  rw [wellSized_iff] at hquery
  rw [length_input hreveal] at hrinput hreply
  rw [wellSized_iff] at hreveal
  refine fits_iff.mpr ⟨hcommits, fun frame hframe => ?_⟩
  simp only [List.mem_cons, List.not_mem_nil, or_false] at hframe
  unfold isizeMax32
  rcases hframe with rfl | rfl | rfl | rfl | rfl
  · rw [hpacket]
    decide
  all_goals omega

/-- A run that commits a journal has passed steps 1 to 3. -/
theorem steps_of_main {journal : Bytes}
    (h : main E [packet, queryIdBytes, queryTx, reply, commits, revealTx] = .ok journal) :
    ∃ queryId : ByteVec 8, queryId.val = queryIdBytes ∧
      ∃ q r, Steps E packet queryId queryTx reply revealTx q r := by
  rw [main_of_fits (fits_of_main h)] at h
  simp only [checkFrames, bind_eq_ok, assert_eq_ok, expect_eq_ok, exists_const, beq_iff_eq] at h
  obtain ⟨hlen, queryId, hid, ⟨epoch, pubkeys, sorted⟩, hpacket, tick, hquery, _, hreveal, -⟩ := h
  have hval : queryId.val = queryIdBytes := by
    unfold toArray at hid
    split at hid
    · cases hid
      rfl
    · cases hid
  obtain ⟨hp, -, rfl, hsorted⟩ := checkPacket_eq_ok hlen hpacket
  obtain ⟨q, hq, -⟩ := checkQuery_eq_ok.mp hquery
  obtain ⟨r, hr⟩ := (checkReveal_eq_ok hsorted).mp hreveal
  exact ⟨queryId, hval, q, r, { packetValid := hp, queryValid := hq, revealValid := hr }⟩

/-- **After steps 1 to 3 a run ends as step 4 ends**, if it has room for the commits. -/
theorem main_of_steps (h : Steps E packet queryId queryTx reply revealTx q r) :
    ∃ sorted, SortedIndex (pubkeysOf packet) sorted ∧ ∀ commits, commits.length ≤ isizeMax32 →
      main E [packet, queryId.val, queryTx, reply, commits, revealTx]
        = (checkCommits E (pubkeysOf packet) sorted queryId q.tick (E.qubicK12 reply) reply commits
            >>= fun _ => .ok (journalOf (epochOf packet) queryId (E.qubicK12 reply))) := by
  obtain ⟨sorted, hsorted, hpacket⟩ := checkPacket_complete h.packetValid
  have hquery : checkQuery E queryTx (toU64 queryId.val) = .ok q.tick :=
    checkQuery_eq_ok.mpr ⟨q, h.queryValid, rfl⟩
  have hreveal : checkReveal E (pubkeysOf packet) sorted queryId reply revealTx = .ok () :=
    (checkReveal_eq_ok hsorted).mpr ⟨r, h.revealValid⟩
  refine ⟨sorted, hsorted, fun commits hcommits => ?_⟩
  rw [main_of_fits (h.fits hcommits)]
  simp only [checkFrames, ok_bind, h.packetValid.size, beq_self_eq_true, assert_true, toArray_val,
    Except.toOption, expect_some, hpacket, hquery, hreveal, buildJournal_eq]
  rfl

/-- Everything before step 4, as one computation that does not see the commits frame. -/
def beforeCommits (E : Externs) (packet : Bytes) (queryId : ByteVec 8)
    (queryTx reply revealTx : Bytes) : Rust (UInt16 × Bytes × List UInt16 × UInt32) := do
  assert (packet.length == packetSize) s!"computors packet must be {packetSize} bytes"
  let (epoch, pubkeys, sorted) ← checkPacket E packet
  let queryTick ← checkQuery E queryTx (toU64 queryId.val)
  checkReveal E pubkeys sorted queryId reply revealTx
  return (epoch, pubkeys, sorted, queryTick)

/-- Step 4 and the journal, from what the steps before it found. -/
def fromCommits (E : Externs) (queryId : ByteVec 8) (reply commits : Bytes) :
    UInt16 × Bytes × List UInt16 × UInt32 → Rust Bytes
  | (epoch, pubkeys, sorted, queryTick) => do
    checkCommits E pubkeys sorted queryId queryTick (k12 E reply) reply commits
    buildJournal epoch queryId (k12 E reply)

theorem checkFrames_eq (E : Externs) (packet : Bytes) (queryId : ByteVec 8)
    (queryTx reply commits revealTx : Bytes) :
    checkFrames E packet queryId.val queryTx reply commits revealTx
      = beforeCommits E packet queryId queryTx reply revealTx
        >>= fromCommits E queryId reply commits := by
  simp only [checkFrames, beforeCommits, fromCommits, toArray_val, Except.toOption, expect_some,
    ok_bind, bind_assoc, pure_bind]

/-- A run that does not pass steps 1 to 3 fails, and fails the same way whatever
the commits frame holds. -/
theorem main_of_not_steps (h : ∀ q r, ¬ Steps E packet queryId queryTx reply revealTx q r) :
    ∃ panic, ∀ commits, commits.length ≤ isizeMax32 →
      main E [packet, queryId.val, queryTx, reply, commits, revealTx] = .error panic := by
  by_cases hothers : Fits [packet, queryId.val, queryTx, reply, revealTx]
  swap
  -- one of the other frames is too long
  · exact ⟨_, fun commits _ => main_of_not_fits fun hfits => hothers (fits_iff.mp hfits).2⟩
  cases hbefore : beforeCommits E packet queryId queryTx reply revealTx with
  | error panic =>
    refine ⟨panic, fun commits hcommits => ?_⟩
    rw [main_of_fits (fits_iff.mpr ⟨hcommits, hothers⟩), checkFrames_eq, hbefore]
    rfl
  | ok p =>
    obtain ⟨epoch, pubkeys, sorted, tick⟩ := p
    simp only [beforeCommits, bind_eq_ok, assert_eq_ok, exists_const, beq_iff_eq, pure_eq_ok]
      at hbefore
    obtain ⟨hlen, ⟨epoch', pubkeys', sorted'⟩, hpacket, tick', hquery, _, hreveal, -⟩ := hbefore
    obtain ⟨hp, -, rfl, hsorted⟩ := checkPacket_eq_ok hlen hpacket
    obtain ⟨q, hq, -⟩ := checkQuery_eq_ok.mp hquery
    obtain ⟨r, hr⟩ := (checkReveal_eq_ok hsorted).mp hreveal
    exact absurd { packetValid := hp, queryValid := hq, revealValid := hr } (h q r)

end Main

/-! ## Step 4 -/

section Commits

variable {E : Externs} {pubkeys : Bytes} {sorted : List UInt16} {queryId : ByteVec 8}
  {queryTick : UInt32} {reply : Bytes}

/-- Among the records the count of a commits frame announces there is `raw`. -/
def HoldsRecord (commits raw : Bytes) : Prop :=
  ∃ count before after, commits = count ++ Records.encodeAll before ++ Records.encode raw ++ after
    ∧ count.length = 4 ∧ before.length < (toU32 count).toNat

/-- The computors with a valid commit among some transactions. -/
def committers (E : Externs) (pubkeys : Bytes) (queryId : ByteVec 8) (queryTick : UInt32)
    (reply : Bytes) (commitTxs : List Bytes) : Set Nat :=
  {i | ∃ raw ∈ commitTxs, ValidCommit E pubkeys queryId queryTick reply raw i}

theorem holdsRecord_of_mem {count raw : Bytes} {raws : List Bytes} (hcount : count.length = 4)
    (hn : raws.length ≤ (toU32 count).toNat) (hmem : raw ∈ raws) (rest : Bytes) :
    HoldsRecord (count ++ (Records.encodeAll raws ++ rest)) raw := by
  obtain ⟨before, after, rfl⟩ := List.append_of_mem hmem
  refine ⟨count, before, Records.encodeAll after ++ rest, ?_, hcount, ?_⟩
  · simp only [Records.encodeAll_append, Records.encodeAll_cons, List.append_assoc]
  · rw [List.length_append, List.length_cons] at hn
    omega

/-- Step 4 returns only if 451 distinct computors have a valid commit in the
frame. -/
theorem checkCommits_sound (hs : SortedIndex pubkeys sorted) {commits : Bytes} {u : Unit}
    (h : checkCommits E pubkeys sorted queryId queryTick (E.qubicK12 reply) reply commits = .ok u) :
    ∃ indices : Finset Nat, quorum ≤ indices.card ∧ ∀ i ∈ indices,
      ∃ raw, HoldsRecord commits raw ∧ ValidCommit E pubkeys queryId queryTick reply raw i := by
  simp only [checkCommits, bind_eq_ok, assert_eq_ok, slice_eq_ok, exists_const,
    decide_eq_true_eq] at h
  obtain ⟨h4, count, ⟨-, -, rfl⟩, c, hloop, hc⟩ := h
  have hquorum : quorum ≤ c := by
    by_contra hlt
    rw [if_pos (Nat.not_le.mp hlt)] at hc
    cases hc
  obtain ⟨raws, rest, hdrop, hle, rfl⟩ :=
    commitLoop_sound (checkCommit_judges E queryId queryTick reply hs) (by decide) marks_init hloop
  -- a computor is collected once
  have hnodup := Tally.collect_nodup (vote E pubkeys sorted queryId queryTick reply) quorum raws []
    List.nodup_nil
  refine ⟨(Tally.collect (vote E pubkeys sorted queryId queryTick reply) quorum raws []).toFinset,
    ?_, fun i hi => ?_⟩
  · rw [List.toFinset_card_of_nodup hnodup]
    exact hquorum
  rcases Tally.collect_sound (List.mem_toFinset.mp hi) with hnil | ⟨raw, hraw, hvote⟩
  · cases hnil
  refine ⟨raw, ?_, (vote_eq_some hs).mp hvote⟩
  -- the records stand behind the count
  have hframe : commits = commits.take 4 ++ (Records.encodeAll raws ++ rest) := by
    rw [← hdrop, List.take_append_drop]
  have hholds := holdsRecord_of_mem (List.length_take_of_le h4) hle hraw rest
  rw [← hframe] at hholds
  exact hholds

/-- The loop counts the computors with a valid commit, up to the quorum. -/
theorem length_collect_vote (hs : SortedIndex pubkeys sorted) (txs : List Bytes) :
    (Tally.collect (vote E pubkeys sorted queryId queryTick reply) quorum txs []).length
      = min quorum (committers E pubkeys queryId queryTick reply txs).ncard := by
  have hcard : (Tally.voters (vote E pubkeys sorted queryId queryTick reply) txs).card
      = (committers E pubkeys queryId queryTick reply txs).ncard := by
    rw [Tally.card_voters]
    congr 1
    ext i
    exact exists_congr fun raw => and_congr_right fun _ => vote_eq_some hs
  rw [Tally.length_collect txs [] List.nodup_nil (by decide), List.toFinset_nil,
    Finset.empty_union, hcard]

/-- **On the frame of a list of transactions step 4 compares the number of
computors with a valid commit with the quorum**, and reports that number. -/
theorem checkCommits_complete (E : Externs) (queryId : ByteVec 8) (queryTick : UInt32)
    (reply : Bytes) (hs : SortedIndex pubkeys sorted) {count : Bytes} {commitTxs : List Bytes}
    (hcount : count.length = 4)
    (hn : (toU32 count).toNat = commitTxs.length)
    (hlen : (count ++ Records.encodeAll commitTxs).length < 2 ^ 32) :
    checkCommits E pubkeys sorted queryId queryTick (E.qubicK12 reply) reply
        (count ++ Records.encodeAll commitTxs)
      = if quorum ≤ (committers E pubkeys queryId queryTick reply commitTxs).ncard then .ok ()
        else .error (.message (quorumNotReached
          (committers E pubkeys queryId queryTick reply commitTxs).ncard)) := by
  let D := (committers E pubkeys queryId queryTick reply commitTxs).ncard
  -- the loop stops at the quorum, so it may count fewer computors than there are
  have hcollect : (Tally.collect (vote E pubkeys sorted queryId queryTick reply) quorum
      commitTxs []).length = min quorum D := length_collect_vote hs commitTxs
  have hbytes : ∀ raw ∈ commitTxs, raw.length < 2 ^ 32 := fun raw hraw => by
    have := Records.length_le_of_mem hraw
    rw [List.length_append] at hlen
    omega
  have h4 : 4 ≤ (count ++ Records.encodeAll commitTxs).length := by
    rw [List.length_append]
    omega
  have hread : Records.readAll commitTxs.length ((count ++ Records.encodeAll commitTxs).drop 4)
      = (commitTxs, .ok []) := by
    rw [List.drop_left' hcount, ← List.append_nil (Records.encodeAll commitTxs)]
    exact Records.readAll_encodeAll hbytes []
  have hloop : commitLoop
      (fun raw seen =>
        checkCommit E raw pubkeys sorted seen queryId queryTick (E.qubicK12 reply) reply)
      (count ++ Records.encodeAll commitTxs) commitTxs.length 4 (Vector.replicate _ false) 0
        = .ok (min quorum D) := by
    have h := commitLoop_complete
      (checkCommit_judges E queryId queryTick reply hs)
      (n := commitTxs.length) hlen h4 marks_init (by decide)
    rw [hread] at h
    simp only [ite_self] at h
    rw [← hcollect]
    exact h
  rw [checkCommits, decide_eq_true h4, assert_true, ok_bind, slice_of_le (by decide) h4, ok_bind,
    List.drop_zero, Nat.sub_zero, List.take_left' hcount, hn]
  simp only [hloop, ok_bind]
  by_cases hD : quorum ≤ D
  · rw [Nat.min_eq_left hD, if_neg (Nat.lt_irrefl _), if_pos hD]
    rfl
  · have hlt : D < quorum := Nat.not_le.mp hD
    rw [Nat.min_eq_right (Nat.le_of_lt hlt), if_pos hlt, if_neg hD]
    rfl

end Commits

end ZkQuorum.Guest
