import ZkQuorum.Contract.Runs
import ZkQuorum.Guest.Reply
import ZkQuorum.Lib.Quorum

/-!
# What the contract attests

The guest and the contract together, for routers that accept a seal only for a journal that the
guest committed. `Evidence` is what the frames of such a run of the guest hold: a list that the
arbitrator signed, a query, a reveal, and a certificate of 451 computors of the list.

- `evidence_of_main`: a committed journal has its evidence in the frames;
- **`attested_evidence`**: so has every entry that any run of calls leaves in the contract;
- **`attested_double_signers`**: two replies attested for one query of one epoch make 226
  computors that signed commits to both, when one list was used for the epoch.
-/

namespace ZkQuorum.Protocol

open LittleEndian Rust Guest Contract GenFixture

/-! ## Evidence -/

/-- A digest for a query. -/
structure Outcome where
  queryId : ByteVec 8
  digest : ByteVec 32

/-- One of the transactions sent is a commit of the computor `i` of a list to the outcome. -/
def Commits (E : Externs) (Sent : Bytes → Prop) (pubkeys : Bytes) (i : Nat) (o : Outcome) : Prop :=
  ∃ raw queryTick reply, Sent raw ∧ E.qubicK12 reply = o.digest ∧
    ValidCommit E pubkeys o.queryId queryTick reply raw i

/-- 451 of the 676 computors of a list committed to the outcome. -/
abbrev ComputorQuorum (E : Externs) (Sent : Bytes → Prop) (pubkeys : Bytes) (o : Outcome) : Type :=
  Quorum.Certificate (Finset.range numberOfComputors) quorum (Commits E Sent pubkeys) o

/-- What the frames of a run of the guest hold. -/
structure Evidence (E : Externs) (frames : List Bytes) where
  packet : Bytes
  queryTx : Bytes
  reply : Bytes
  commits : Bytes
  revealTx : Bytes
  outcome : Outcome
  frames_eq : frames.take 6 = [packet, outcome.queryId.val, queryTx, reply, commits, revealTx]
  packetValid : PacketValid E packet
  query : ∃ q, QueryValid E queryTx outcome.queryId q
  reveal : ∃ r, RevealValid E (pubkeysOf packet) outcome.queryId reply revealTx r
  digest : E.qubicK12 reply = outcome.digest
  quorum : ComputorQuorum E (HoldsRecord commits) (pubkeysOf packet) outcome

namespace Evidence

variable {E : Externs} {frames : List Bytes} (e : Evidence E frames)

/-- The journal of the evidence. -/
def journal : Bytes := journalOf (epochOf e.packet) e.outcome.queryId e.outcome.digest

/-- The evidence is for an entry of the contract. -/
structure For (digest : ByteVec 32) (epoch : UInt32) (queryId : UInt64) : Prop where
  outcome : e.outcome = ⟨bytesOfU64 queryId, digest⟩
  epoch : (epochOf e.packet).toUInt32 = epoch

end Evidence

/-- A run reads six frames, and does not look at more. -/
theorem frames_of_main {E : Externs} {frames : List Bytes} {journal : Bytes}
    (h : Guest.main E frames = .ok journal) :
    ∃ packet queryIdBytes queryTx reply commits revealTx,
      frames.take 6 = [packet, queryIdBytes, queryTx, reply, commits, revealTx] ∧
        Guest.main E [packet, queryIdBytes, queryTx, reply, commits, revealTx] = .ok journal := by
  have hmain := h
  rw [Guest.main] at h
  obtain ⟨⟨packet, _⟩, h1, h⟩ := bind_eq_ok.mp h
  obtain ⟨⟨queryIdBytes, _⟩, h2, h⟩ := bind_eq_ok.mp h
  obtain ⟨⟨queryTx, _⟩, h3, h⟩ := bind_eq_ok.mp h
  obtain ⟨⟨reply, _⟩, h4, h⟩ := bind_eq_ok.mp h
  obtain ⟨⟨commits, _⟩, h5, h⟩ := bind_eq_ok.mp h
  obtain ⟨⟨revealTx, rest⟩, h6, -⟩ := bind_eq_ok.mp h
  obtain ⟨rfl, -⟩ := readFrame_eq_ok.mp h6
  obtain ⟨rfl, -⟩ := readFrame_eq_ok.mp h5
  obtain ⟨rfl, -⟩ := readFrame_eq_ok.mp h4
  obtain ⟨rfl, -⟩ := readFrame_eq_ok.mp h3
  obtain ⟨rfl, -⟩ := readFrame_eq_ok.mp h2
  obtain ⟨rfl, -⟩ := readFrame_eq_ok.mp h1
  refine ⟨packet, queryIdBytes, queryTx, reply, commits, revealTx, rfl, ?_⟩
  rw [main_eq_checkFrames] at hmain ⊢
  exact hmain

/-- **A committed journal has its evidence.** -/
theorem evidence_of_main {E : Externs} {frames : List Bytes} {journal : Bytes}
    (h : Guest.main E frames = .ok journal) : ∃ e : Evidence E frames, e.journal = journal := by
  obtain ⟨packet, queryIdBytes, queryTx, reply, commits, revealTx, hframes, h⟩ := frames_of_main h
  obtain ⟨queryId, rfl, q, r, hsteps⟩ := steps_of_main h
  obtain ⟨sorted, hsorted, hmain⟩ := main_of_steps hsteps
  have hroom : commits.length ≤ isizeMax32 := fits_of_main h _ (by simp)
  rw [hmain commits hroom, bind_eq_ok] at h
  obtain ⟨_, hcommits, hjournal⟩ := h
  obtain ⟨indices, hcard, hvalid⟩ := checkCommits_sound hsorted hcommits
  have hquorum : ComputorQuorum E (HoldsRecord commits) (pubkeysOf packet)
      ⟨queryId, E.qubicK12 reply⟩ := {
    signers := indices
    subset := fun i hi => by
      obtain ⟨raw, -, hcommit⟩ := hvalid i hi
      exact Finset.mem_range.mpr hcommit.lt
    quorum_le := hcard
    signs := fun i hi => by
      obtain ⟨raw, hholds, hcommit⟩ := hvalid i hi
      exact ⟨raw, q.tick, reply, hholds, rfl, hcommit⟩ }
  cases hjournal
  exact ⟨⟨packet, queryTx, reply, commits, revealTx, ⟨queryId, E.qubicK12 reply⟩, hframes,
    hsteps.packetValid, ⟨q, hsteps.queryValid⟩, ⟨r, hsteps.revealValid⟩, rfl, hquorum⟩, rfl⟩

/-- The journal of the evidence, as the contract decodes it. -/
theorem Evidence.for_of_decode {E : Externs} {frames : List Bytes} (e : Evidence E frames)
    {journal : ByteVec 44} (h : e.journal = journal.val) {digest : ByteVec 32} {epoch : UInt32}
    {queryId : UInt64} (hdecode : decode journal = (epoch, queryId, digest)) :
    e.For digest epoch queryId := by
  have hid : ofU64 (toU64 e.outcome.queryId.val) = e.outcome.queryId.val :=
    ofU64_toU64 e.outcome.queryId.property
  have hjournal : journal
      = encode (epochOf e.packet).toUInt32 (toU64 e.outcome.queryId.val) e.outcome.digest := by
    apply Subtype.ext
    rw [← h]
    show ofU32 _ ++ e.outcome.queryId.val ++ _ = ofU32 _ ++ ofU64 _ ++ _
    rw [hid]
  rw [hjournal, decode_encode] at hdecode
  cases hdecode
  refine { outcome := ?_, epoch := rfl }
  rw [show bytesOfU64 (toU64 e.outcome.queryId.val) = e.outcome.queryId from Subtype.ext hid]

/-! ## Runs of the contract -/

/-- Who made the seals of a run of calls. The routers are trusted to accept a seal only for the
SHA-256 of a journal that the guest committed on the frames of its prover, and that journal is
the one that was sent. -/
structure Provers (E : Externs) (C : Config) (calls : List Call) where
  /-- what the guest read for the seal of a call -/
  frames : Call → List Bytes
  sound : ∀ call ∈ calls, Verified C call →
    ∃ journal, Guest.main E (frames call) = .ok journal ∧ C.sha256 journal = C.sha256 call.journal
  noCollision : ∀ call ∈ calls, ∀ journal, Guest.main E (frames call) = .ok journal →
    C.sha256 journal = C.sha256 call.journal → journal = call.journal

section Runs

variable {E : Externs} {C : Config} {calls : List Call} {digest digest' : ByteVec 32}
  {epoch : UInt32} {queryId : UInt64}

/-- An accepted call has its evidence. -/
theorem Provers.evidence_of_accepted (P : Provers E C calls) {call : Call} (hcall : call ∈ calls)
    (h : Accepted C call digest epoch queryId) :
    ∃ e : Evidence E (P.frames call), e.For digest epoch queryId := by
  obtain ⟨hlen, hdecode, -, hverified⟩ := h
  obtain ⟨journal, hmain, hsha⟩ := P.sound call hcall hverified
  obtain rfl := P.noCollision call hcall journal hmain hsha
  obtain ⟨e, he⟩ := evidence_of_main hmain
  have hjournal : e.journal = (⟨call.journal, hlen⟩ : ByteVec 44).val := he
  exact ⟨e, e.for_of_decode hjournal hdecode⟩

/-- An entry that is set holds the query id of an accepted call. -/
theorem accepted_of_isAttested (h : (Contract.run C calls).isAttested digest epoch = true) :
    ∃ call ∈ calls,
      Accepted C call digest epoch ((Contract.run C calls).attestedQueryId digest epoch) := by
  have hentry : (storeOf (Contract.run C calls)).entries (digest, epoch)
      = some ((Contract.run C calls).attestedQueryId digest epoch) := if_pos h
  rw [storeOf_run, WriteOnce.run_entries] at hentry
  obtain ⟨offer, hoffer, hvalue⟩ := List.exists_of_findSome?_eq_some hentry
  obtain ⟨call, hcall, rfl⟩ := List.mem_map.mp hoffer
  exact ⟨call, hcall, valueFor_offer.mp hvalue⟩

/-- **Every entry of the contract has its evidence**, with the query id that is stored. -/
theorem attested_evidence (P : Provers E C calls)
    (h : (Contract.run C calls).isAttested digest epoch = true) :
    ∃ call ∈ calls, ∃ e : Evidence E (P.frames call),
      e.For digest epoch ((Contract.run C calls).attestedQueryId digest epoch) := by
  obtain ⟨call, hcall, haccepted⟩ := accepted_of_isAttested h
  obtain ⟨e, he⟩ := P.evidence_of_accepted hcall haccepted
  exact ⟨call, hcall, e, he⟩

/-! ## Agreement -/

/-- The provers used one list for the epoch. -/
def Provers.OneList (P : Provers E C calls) (epoch : UInt32) : Prop :=
  ∀ call ∈ calls, ∀ call' ∈ calls, ∀ (e : Evidence E (P.frames call))
    (e' : Evidence E (P.frames call')), (epochOf e.packet).toUInt32 = epoch →
      (epochOf e'.packet).toUInt32 = epoch → pubkeysOf e.packet = pubkeysOf e'.packet

/-- The transactions that the provers were given. -/
def Provers.Sent (P : Provers E C calls) (raw : Bytes) : Prop :=
  ∃ call ∈ calls, ∃ e : Evidence E (P.frames call), HoldsRecord e.commits raw

/-- The quorum of some evidence, among all transactions. -/
def Provers.quorum (P : Provers E C calls) {call : Call} (hcall : call ∈ calls)
    (e : Evidence E (P.frames call)) : ComputorQuorum E P.Sent (pubkeysOf e.packet) e.outcome :=
  e.quorum.mono fun _ ⟨raw, queryTick, reply, hholds, hdigest, hcommit⟩ =>
    ⟨raw, queryTick, reply, ⟨call, hcall, e, hholds⟩, hdigest, hcommit⟩

/-- **Accountability of the contract**: two digests attested for one query of one epoch show
226 computors of its list that signed commits to both. -/
theorem attested_double_signers (P : Provers E C calls) (hone : P.OneList epoch)
    (h : (Contract.run C calls).isAttested digest epoch = true)
    (h' : (Contract.run C calls).isAttested digest' epoch = true)
    (hid : (Contract.run C calls).attestedQueryId digest epoch
      = (Contract.run C calls).attestedQueryId digest' epoch) :
    ∃ packet, PacketValid E packet ∧ (epochOf packet).toUInt32 = epoch ∧
      ∃ both ⊆ Finset.range numberOfComputors, 226 ≤ both.card ∧ ∀ i ∈ both,
        let queryId := bytesOfU64 ((Contract.run C calls).attestedQueryId digest epoch)
        Commits E P.Sent (pubkeysOf packet) i ⟨queryId, digest⟩ ∧
          Commits E P.Sent (pubkeysOf packet) i ⟨queryId, digest'⟩ := by
  obtain ⟨call, hcall, haccepted⟩ := accepted_of_isAttested h
  obtain ⟨e, he⟩ := P.evidence_of_accepted hcall haccepted
  obtain ⟨call', hcall', haccepted'⟩ := accepted_of_isAttested h'
  obtain ⟨e', he'⟩ := P.evidence_of_accepted hcall' haccepted'
  rw [← hid] at he'
  have c := P.quorum hcall e
  have c' := P.quorum hcall' e'
  rw [he.outcome] at c
  rw [he'.outcome, ← hone call hcall call' hcall' e e' he.epoch he'.epoch] at c'
  obtain ⟨both, hsub, hcard, hboth⟩ := c.exists_double_signers c'
  refine ⟨e.packet, e.packetValid, he.epoch, both, hsub, ?_, hboth⟩
  rw [Finset.card_range] at hcard
  unfold quorum numberOfComputors at hcard
  omega

end Runs

/-! ## Two replies for one query -/

namespace TwoReplies

/-- A hash that tells lengths apart, and a verifier that accepts. -/
def externs : Externs := { demoExterns with
  qubicK12 := fun b => (demoKey b.length).pub }

theorem honest (n : Nat) (h : n ≤ 65527) : (demoOfLength n).Honest externs :=
  { demoOfLength_honest h with
    arbSigns := fun _ => rfl
    userSigns := fun _ => rfl
    compSigns := fun _ _ => rfl }

/-- The frames of the series with a reply of `n` bytes. -/
def frames (n : Nat) : List Bytes := Host.toEnv ((demoOfLength n).fixture externs everyone)

def digest (n : Nat) : ByteVec 32 := externs.qubicK12 (List.replicate n 0)

def journal (n : Nat) : ByteVec 44 := encode 999 demo.queryId (digest n)

theorem main_frames {n : Nat} (h : n ≤ 65527) :
    Guest.main externs (frames n) = .ok (journal n).val :=
  Series.main_of_honest (honest n h)
    (show demo.queryTick.toNat = demo.queryId.toNat / 2 ^ 31 by decide) quorum_le_everyone
    (by rw [everyone, List.length_finRange]; decide)

def config : Config where
  imageId := ByteVec.zero 32
  sha256 := externs.qubicK12

/-- The call for a reply of `n` bytes. -/
def call (n : Nat) : Call where
  caller := ByteVec.zero 20
  journal := (journal n).val
  sealBytes := []
  verify _ _ _ := true

theorem accepted (n : Nat) : Accepted config (call n) (digest n) 999 demo.queryId :=
  ⟨(journal n).property, decode_encode _ _ _, by decide, rfl⟩

theorem journal_ne : (journal 1).val ≠ (journal 2).val := by
  decide

/-- The frames for a call. -/
def framesOf (c : Call) : List Bytes := if c.journal = (journal 1).val then frames 1 else frames 2

theorem main_framesOf {c : Call} (hc : c ∈ [call 1, call 2]) :
    Guest.main externs (framesOf c) = .ok c.journal := by
  rcases List.mem_pair.mp hc with rfl | rfl
  · exact (congrArg _ (if_pos rfl)).trans (main_frames (by decide))
  · exact (congrArg _ (if_neg journal_ne.symm)).trans (main_frames (by decide))

/-- The calls for replies of 1 and 2 bytes, with their frames. -/
def provers : Provers externs config [call 1, call 2] where
  frames := framesOf
  sound _ hc _ := ⟨_, main_framesOf hc, rfl⟩
  noCollision _ hc _ hmain _ := Except.ok.inj (hmain.symm.trans (main_framesOf hc))

theorem oneList : provers.OneList 999 := by
  have hpacket : ∀ c, ∀ e : Evidence externs (provers.frames c),
      e.packet = demo.packet externs := by
    intro c e
    have hframes : (framesOf c).take 6 = _ := e.frames_eq
    unfold framesOf at hframes
    split at hframes
    · exact (List.cons.inj hframes).1.symm
    · exact (List.cons.inj hframes).1.symm
  intro c _ c' _ e e' _ _
  rw [hpacket c e, hpacket c' e']

theorem isAttested {n : Nat} (h : call n ∈ [call 1, call 2]) :
    (Contract.run config [call 1, call 2]).isAttested (digest n) 999 = true :=
  (isAttested_run_iff config _ _ _).mpr ⟨call n, h, _, accepted n⟩

theorem attestedQueryId {n : Nat} (h : call n ∈ [call 1, call 2]) :
    (Contract.run config [call 1, call 2]).attestedQueryId (digest n) 999 = demo.queryId := by
  obtain ⟨c, hc, ⟨hlen, hdecode, -⟩⟩ := accepted_of_isAttested (isAttested h)
  have hall : ∀ m, decode (journal m) = (999, demo.queryId, digest m) := fun m =>
    decode_encode _ _ _
  rcases List.mem_pair.mp hc with rfl | rfl
  · have heq := hdecode.symm.trans (hall 1)
    exact (Prod.mk.inj (Prod.mk.inj heq).2).1
  · have heq := hdecode.symm.trans (hall 2)
    exact (Prod.mk.inj (Prod.mk.inj heq).2).1

end TwoReplies

/-- The entry of the first reply has its evidence. -/
theorem attested_evidence_demo :
    let s := Contract.run TwoReplies.config [TwoReplies.call 1, TwoReplies.call 2]
    ∃ call ∈ [TwoReplies.call 1, TwoReplies.call 2],
      ∃ e : Evidence TwoReplies.externs (TwoReplies.provers.frames call),
        e.For (TwoReplies.digest 1) 999 (s.attestedQueryId (TwoReplies.digest 1) 999) :=
  attested_evidence TwoReplies.provers (TwoReplies.isAttested (by simp))

/-- 226 computors committed to both replies. -/
theorem attested_double_signers_demo :
    ∃ packet, PacketValid TwoReplies.externs packet ∧ (epochOf packet).toUInt32 = 999 ∧
      ∃ both ⊆ Finset.range numberOfComputors, 226 ≤ both.card ∧ ∀ i ∈ both,
        let queryId := bytesOfU64 ((Contract.run TwoReplies.config
          [TwoReplies.call 1, TwoReplies.call 2]).attestedQueryId (TwoReplies.digest 1) 999)
        Commits TwoReplies.externs TwoReplies.provers.Sent (pubkeysOf packet) i
            ⟨queryId, TwoReplies.digest 1⟩ ∧
          Commits TwoReplies.externs TwoReplies.provers.Sent (pubkeysOf packet) i
            ⟨queryId, TwoReplies.digest 2⟩ :=
  attested_double_signers TwoReplies.provers TwoReplies.oneList
    (TwoReplies.isAttested (by simp)) (TwoReplies.isAttested (by simp))
    ((TwoReplies.attestedQueryId (by simp)).trans (TwoReplies.attestedQueryId (by simp)).symm)

end ZkQuorum.Protocol
