import ZkQuorum.Contract.Runs
import ZkQuorum.GenFixture.SelfChecks
import ZkQuorum.Host.Prove

/-!
# From a fixture to the contract

The liveness of the whole: what `gen_fixture` writes, with a quorum of good commits, is proved by
`zkq-prove` outside dev mode, its record is accepted by `zkq-prove verify`, and a call of the
contract with the journal and the seal of the record sets the entry.

The verifier and the hash are any functions: the writer has checked what it wrote with them.
-/

namespace ZkQuorum.Protocol

open LittleEndian Guest Host GenFixture Contract

/-- The router of a chain accepts the seals of Groth16 receipts, for the image of this build. -/
structure Router (Z : Zkvm) (C : Config) (verify : Bytes → ByteVec 32 → ByteVec 32 → Bool) :
    Prop where
  imageId : C.imageId = Z.imageId
  accepts : ∀ r, Z.verifies false r = true → Z.inner r = .groth16 →
    ∃ sealBytes, Z.encodeSeal r = some sealBytes ∧
      verify sealBytes Z.imageId (C.sha256 (Z.journal r)) = true

/-- A call that is accepted sets its entry, if it is not set yet. -/
theorem exec_of_accepted {C : Config} {call : Call} {digest : ByteVec 32} {epoch : UInt32}
    {queryId : UInt64} (h : Accepted C call digest epoch queryId) (s : Contract.State) :
    exec C s call = if s.isAttested digest epoch then s else recorded s digest epoch queryId := by
  rcases attest_cases C s call with ⟨digest', epoch', queryId', h', hunset, hattest⟩ | ⟨hset, hexec⟩
  · obtain ⟨hlen, hdecode, -⟩ := h
    obtain ⟨hlen', hdecode', -⟩ := h'
    cases hdecode.symm.trans hdecode'
    rw [hunset, if_neg Bool.false_ne_true, exec, hattest]
  · rw [hset _ _ _ h, if_pos rfl, hexec]

section Pipeline

variable {E : Externs} {H : StockHost} {files : CString → Option Bytes} {argv : List CString}
  {u : Setup} {out : Output} {Z : Zkvm} {C : Config}
  {verify : Bytes → ByteVec 32 → ByteVec 32 → Bool}

/-- **A generated fixture reaches the contract**, whatever the state of the contract. -/
theorem generated_attested (hsetup : setup H files argv = .ok u)
    (hmain : GenFixture.main E H files argv = .ok out) (hpubs : DistinctPubs u.series)
    (harb : u.series.arb.pub = E.arbitratorPubkey) (hreplay : u.args.replay = false)
    (hquorum : quorum ≤ goodCommits u.args) (hZ : Z.Complete E) (hrouter : Router Z C verify) :
    let digest := E.qubicK12 u.series.message
    let epoch := u.series.epoch.toUInt32
    ∃ (bytes : Rust.Buffer) (fx : Fixture) (proof : Proof Z) (journal sealBytes : Bytes),
      bytes.val = out.file ∧ parse bytes = pure fx ∧
      prove Z false E fx "groth16" = .ok proof ∧
      (∀ devMode, Host.verify devMode false proof = .ok (epoch, u.series.queryId, digest)) ∧
      proof.journalHex = hex0x Z journal ∧ proof.sealHex = hex0x Z sealBytes ∧
      ∀ (caller : ByteVec 20) (s : Contract.State),
        exec C s { caller, journal, sealBytes, verify }
          = if s.isAttested digest epoch then s else recorded s digest epoch u.series.queryId := by
  obtain ⟨hrange, txs, rfl, h⟩ := written_of_main hsetup hmain
  obtain ⟨bytes, hfile, -, hparse, -, hguest⟩ :=
    guest_of_written hrange h hpubs harb (E.qubicK12 u.series.message)
  -- the good commits alone are a quorum, so the guest commits its journal
  rw [if_pos (Nat.le_trans hquorum (goodCommits_le_ncard hrange hreplay h))] at hguest
  obtain ⟨r, hprove, hjournal, hverifies, hinner⟩ := prove_of_main hZ hguest
  obtain ⟨sealBytes, hseal, haccepts⟩ := hrouter.accepts r (hverifies false) hinner
  have hlen : (Z.journal r).length = 44 := by
    rw [hjournal]
    exact (encode u.series.epoch.toUInt32 u.series.queryId _).property
  have hdecode : decode ⟨Z.journal r, hlen⟩
      = (u.series.epoch.toUInt32, u.series.queryId, E.qubicK12 u.series.message) := by
    rw [← decode_encode]
    exact congrArg decode (Subtype.ext hjournal)
  refine ⟨bytes, _, proofOf r, Z.journal r, sealBytes, hfile, hparse, hprove, ?_, rfl, ?_, ?_⟩
  · have hnotFake : Z.inner r ≠ .fake := by
      rw [hinner]
      exact fun hfake => nomatch hfake
    exact fun devMode =>
      verify_eq_ok.mpr ⟨rfl, .inr hnotFake, hverifies devMode, hlen, hdecode⟩
  · show ((Z.encodeSeal r).map (hex0x Z)).getD [] = hex0x Z sealBytes
    rw [hseal]
    rfl
  -- the contract, for any caller and whatever was attested before
  · intro caller s
    have hverified : Verified C { caller, journal := Z.journal r, sealBytes, verify } := by
      show verify sealBytes C.imageId (C.sha256 (Z.journal r)) = true
      rw [hrouter.imageId]
      exact haccepts
    have hepoch : u.series.epoch.toUInt32 ≠ 0 :=
      fun hzero => hrange.epoch (UInt16.toUInt32_inj.mp hzero)
    have haccepted : Accepted C { caller, journal := Z.journal r, sealBytes, verify }
        (E.qubicK12 u.series.message) u.series.epoch.toUInt32 u.series.queryId :=
      Exists.intro hlen ⟨hdecode, hepoch, hverified⟩
    exact exec_of_accepted haccepted s

end Pipeline

/-- A chain for the small zkVM, whose router accepts every seal. -/
def demoConfig : Config where
  imageId := ByteVec.zero 32
  sha256 := reportExterns.qubicK12

theorem router_demo : Router (demoZkvm reportExterns) demoConfig fun _ _ _ => true where
  imageId := rfl
  accepts r _ _ := ⟨r.2, rfl, rfl⟩

/-- The demo of the writer reaches the contract. -/
theorem generated_attested_demo :
    let digest := reportExterns.qubicK12 demoSetup.series.message
    let epoch := demoSetup.series.epoch.toUInt32
    ∃ journal sealBytes, ∀ (caller : ByteVec 20) (s : Contract.State),
      exec demoConfig s { caller, journal, sealBytes, verify := fun _ _ _ => true }
        = if s.isAttested digest epoch then s
          else recorded s digest epoch demoSetup.series.queryId := by
  obtain ⟨out, hmain⟩ := main_demoArgv
  obtain ⟨-, -, -, journal, sealBytes, -, -, -, -, -, -, hexec⟩ :=
    generated_attested setup_demo hmain distinctPubs_demo rfl rfl (by decide)
      (demoZkvm_complete reportExterns) router_demo
  exact ⟨journal, sealBytes, hexec⟩

end ZkQuorum.Protocol
