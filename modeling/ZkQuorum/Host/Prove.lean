import ZkQuorum.Contract.Journal
import ZkQuorum.GenFixture.Series
import ZkQuorum.Identity.Codec

/-!
# The prover (host/src/main.rs)

`prove` and `verify` of `zkq-prove`, from the fixture that was loaded on, and from the record
that was read on. The functions of risc0 and of the `hex` crate are a parameter (`Zkvm`). What
they do with fake receipts depends on RISC0_DEV_MODE of the process that calls them.

- `prove_eq_ok` and `verify_eq_ok`: `prove` writes the record of a receipt (`proofOf`), and
  `verify` accepts no other records;
- **`proof_file`**: so `verify` accepts what `prove` wrote, a fake receipt only in dev mode and
  when it is told to, and no other record around the same receipt.
-/

namespace ZkQuorum.Host

open LittleEndian Rust Guest

/-! ## The functions of the crates -/

/-- `InnerReceipt`. -/
inductive InnerReceipt where
  | fake
  | composite
  | succinct
  | groth16
  | other
deriving DecidableEq

/-- `ProverOpts`. -/
inductive ProverOpts where
  | groth16
  | succinct
  | composite
deriving DecidableEq

/-- Receipts for the guest of this build, and texts. `devMode` is RISC0_DEV_MODE of the process. -/
structure Zkvm where
  Receipt : Type
  inner : Receipt → InnerReceipt
  /-- `receipt.journal.bytes` -/
  journal : Receipt → Bytes
  /-- `receipt.verify(ZKQ_QUORUM_ID)` -/
  verifies : (devMode : Bool) → Receipt → Bool
  encodeSeal : Receipt → Option Bytes
  /-- `prove_with_opts` of the default prover on the frames of an environment -/
  proveWithOpts : (devMode : Bool) → ProverOpts → List Bytes → Option Receipt
  /-- `ZKQ_QUORUM_ID` -/
  imageId : ByteVec 32
  /-- `hex::encode` -/
  hex : Bytes → Bytes
  /-- the `Display` of a `Digest` -/
  digestText : ByteVec 32 → Bytes

/-- Fake receipts verify in dev mode only, and the mode makes no difference to the others. -/
structure Zkvm.FakeInDevMode (Z : Zkvm) : Prop where
  fake : ∀ r, Z.inner r = .fake → Z.verifies false r = false
  genuine : ∀ r, Z.inner r ≠ .fake → ∀ devMode, Z.verifies devMode r = Z.verifies false r

variable {Z : Zkvm}

/-- `receipt_kind`. -/
def receiptKind (r : Z.Receipt) : String :=
  match Z.inner r with
  | .fake => "fake"
  | .composite => "composite"
  | .succinct => "succinct"
  | .groth16 => "groth16"
  | .other => "other"

theorem receiptKind_eq_fake {r : Z.Receipt} : receiptKind r = "fake" ↔ Z.inner r = .fake := by
  unfold receiptKind
  cases Z.inner r with
  | fake => exact iff_of_true rfl rfl
  | composite => exact iff_of_false (by decide) (by decide)
  | succinct => exact iff_of_false (by decide) (by decide)
  | groth16 => exact iff_of_false (by decide) (by decide)
  | other => exact iff_of_false (by decide) (by decide)

/-! ## The record -/

/-- `format!("0x{}", hex(b))`. -/
def hex0x (Z : Zkvm) (b : Bytes) : Bytes := [0x30, 0x78] ++ Z.hex b

/-- `image_id_hex`. -/
def imageIdHex (Z : Zkvm) : Bytes := [0x30, 0x78] ++ Z.digestText Z.imageId

/-- `Proof`. -/
structure Proof (Z : Zkvm) where
  imageId : Bytes
  journalHex : Bytes
  sealHex : Bytes
  receiptKind : String
  receipt : Z.Receipt

/-- `encode_seal(&receipt).map(|s| format!("0x{}", hex(s))).unwrap_or_default()`. -/
def sealHex (r : Z.Receipt) : Bytes := ((Z.encodeSeal r).map (hex0x Z)).getD []

/-- The record of a receipt. -/
def proofOf (r : Z.Receipt) : Proof Z where
  imageId := imageIdHex Z
  journalHex := hex0x Z (Z.journal r)
  sealHex := sealHex r
  receiptKind := receiptKind r
  receipt := r

/-- The `--mode` of `prove`. -/
def proverOpts (mode : String) : Rust ProverOpts :=
  match mode with
  | "groth16" => .ok .groth16
  | "succinct" => .ok .succinct
  | "composite" => .ok .composite
  | other => panicWith s!"unknown --mode {other} (groth16|succinct|composite)"

/-- `prove`. -/
def prove (Z : Zkvm) (devMode : Bool) (E : Externs) (fx : Fixture) (mode : String) :
    Rust (Proof Z) := do
  let opts ← proverOpts mode
  let _ ← epoch fx
  let receipt ← Rust.expect (Z.proveWithOpts devMode opts (toEnv fx))
    "proving failed (guest panicked or prover error)"
  assert (Z.verifies devMode receipt) "receipt verification failed"
  let journal := Z.journal receipt
  assert (journal.length == journalSize) "unexpected journal size"
  let expected ← expectedJournal E fx
  assert (journal == expected) "journal mismatch"
  return proofOf receipt

/-- `verify`: what is printed. -/
def verify (devMode allowFake : Bool) (proof : Proof Z) : Rust (UInt32 × UInt64 × ByteVec 32) := do
  assert (proof.imageId == imageIdHex Z) "proof image_id != this build's IMAGE_ID"
  let kind := receiptKind proof.receipt
  assert (allowFake || kind != "fake")
    "FAKE (dev-mode) receipt: not a proof (--allow-fake to inspect)"
  assert (Z.verifies devMode proof.receipt) "receipt verification FAILED"
  let journal := Z.journal proof.receipt
  assert (journal.length == journalSize) "journal size"
  assert (hex0x Z journal == proof.journalHex) "journal_hex mismatch"
  assert (kind == proof.receiptKind) "receipt_kind field mismatch"
  assert (sealHex proof.receipt == proof.sealHex) "seal_hex field mismatch"
  decodeJournal journal

/-! ## What is written and what is accepted -/

section Records

variable {E : Externs} {fx : Fixture} {devMode : Bool} {mode : String} {proof : Proof Z}

theorem prove_eq_ok (h : prove Z devMode E fx mode = .ok proof) :
    ∃ opts r, Z.proveWithOpts devMode opts (toEnv fx) = some r ∧ Z.verifies devMode r = true ∧
      (Z.journal r).length = journalSize ∧ expectedJournal E fx = .ok (Z.journal r) ∧
        proof = proofOf r := by
  unfold prove at h
  obtain ⟨opts, -, h⟩ := bind_eq_ok.mp h
  obtain ⟨_, -, h⟩ := bind_eq_ok.mp h
  obtain ⟨r, hr, h⟩ := bind_eq_ok.mp h
  obtain ⟨_, hverifies, h⟩ := bind_eq_ok.mp h
  obtain ⟨_, hlen, h⟩ := bind_eq_ok.mp h
  obtain ⟨expected, hexpected, h⟩ := bind_eq_ok.mp h
  obtain ⟨_, heq, h⟩ := bind_eq_ok.mp h
  rw [assert_eq_ok, beq_iff_eq] at hlen heq
  cases h
  exact ⟨opts, r, expect_eq_ok.mp hr, assert_eq_ok.mp hverifies, hlen, heq ▸ hexpected, rfl⟩

/-- **What `verify` accepts**: the record of a receipt that verifies, with a journal of 44 bytes,
which it decodes. -/
theorem verify_eq_ok {allowFake : Bool} {t : UInt32 × UInt64 × ByteVec 32} :
    verify devMode allowFake proof = .ok t ↔
      proof = proofOf proof.receipt ∧ (allowFake = true ∨ Z.inner proof.receipt ≠ .fake) ∧
        Z.verifies devMode proof.receipt = true ∧
          ∃ h : (Z.journal proof.receipt).length = 44, Contract.decode ⟨_, h⟩ = t := by
  have hproof : proof = proofOf proof.receipt ↔ proof.imageId = imageIdHex Z ∧
      hex0x Z (Z.journal proof.receipt) = proof.journalHex ∧
        receiptKind proof.receipt = proof.receiptKind ∧ sealHex proof.receipt = proof.sealHex := by
    obtain ⟨imageId, journalHex, sealText, kind, r⟩ := proof
    simp only [proofOf, Proof.mk.injEq, and_true, eq_comm]
    tauto
  have hfake : (allowFake || receiptKind proof.receipt != "fake") = true ↔
      (allowFake = true ∨ Z.inner proof.receipt ≠ .fake) := by
    rw [Bool.or_eq_true, bne_iff_ne, ne_eq, receiptKind_eq_fake]
  have hdecode : (decodeJournal (Z.journal proof.receipt) = .ok t ∧
      (Z.journal proof.receipt).length = journalSize) ↔
        ∃ h : (Z.journal proof.receipt).length = 44, Contract.decode ⟨_, h⟩ = t := by
    constructor
    · rintro ⟨ht, hlen⟩
      have hjournal := Contract.decodeJournal_eq ⟨Z.journal proof.receipt, hlen⟩
      exact ⟨hlen, Except.ok.inj (hjournal.symm.trans ht)⟩
    · rintro ⟨hlen, rfl⟩
      exact ⟨Contract.decodeJournal_eq ⟨Z.journal proof.receipt, hlen⟩, hlen⟩
  rw [hproof, ← hfake, ← hdecode, verify]
  simp only [bind_eq_ok, assert_eq_ok, beq_iff_eq, exists_const]
  tauto

theorem epoch_of_expected {journal : Bytes} (h : expectedJournal E fx = .ok journal) :
    epoch fx = .ok (epochOf fx.computorsPacket) := by
  have hbind : (epoch fx >>= _) = .ok journal := h
  obtain ⟨e, he, -⟩ := bind_eq_ok.mp hbind
  obtain ⟨front, hfront, -⟩ := bind_eq_ok.mp he
  obtain ⟨-, -, rfl⟩ := slice_eq_ok.mp hfront
  rw [epoch, hfront]
  rfl

/-- A journal that is expected is that of the fixture. -/
theorem journal_of_expected {journal : Bytes} (h : expectedJournal E fx = .ok journal) :
    journal = (Contract.encode (epochOf fx.computorsPacket).toUInt32 fx.queryId
      (E.qubicK12 fx.reply)).val := by
  have hepoch := epoch_of_expected h
  rw [expectedJournal, hepoch] at h
  have hbuild := buildJournal_eq (epochOf fx.computorsPacket) (bytesOfU64 fx.queryId)
    (E.qubicK12 fx.reply)
  exact (Except.ok.inj (hbuild.symm.trans h)).symm

/-- Where a receipt verifies that verified in the process that made it. -/
theorem verifies_elsewhere (hmodes : Z.FakeInDevMode) {r : Z.Receipt}
    (h : Z.verifies devMode r = true) (devMode' : Bool) :
    Z.verifies devMode' r = true ↔ Z.inner r ≠ .fake ∨ devMode' = true := by
  by_cases hfake : Z.inner r = .fake
  · have hmade : devMode = true := by
      rw [← Bool.not_eq_false]
      rintro rfl
      rw [hmodes.fake r hfake] at h
      cases h
    subst hmade
    cases devMode' with
    | false =>
      rw [hmodes.fake r hfake]
      refine iff_of_false Bool.false_ne_true ?_
      rintro (hne | hmode)
      · exact hne hfake
      · cases hmode
    | true => exact iff_of_true h (.inr rfl)
  · rw [hmodes.genuine r hfake devMode', ← hmodes.genuine r hfake devMode]
    exact iff_of_true h (.inl hfake)

/-- **Proof files**: what `prove` wrote is accepted by each process, a fake receipt only in dev
mode and when it is allowed, and shows the epoch, the query id and the digest of the reply. A
record with the same receipt and anything else changed is not. -/
theorem proof_file (hmodes : Z.FakeInDevMode) (h : prove Z devMode E fx mode = .ok proof) :
    (∀ devMode' allowFake t, verify devMode' allowFake proof = .ok t ↔
      (Z.inner proof.receipt ≠ .fake ∨ (allowFake = true ∧ devMode' = true)) ∧
        t = ((epochOf fx.computorsPacket).toUInt32, fx.queryId, E.qubicK12 fx.reply)) ∧
    (∀ devMode' allowFake t (other : Proof Z), other.receipt = proof.receipt →
      verify devMode' allowFake other = .ok t → other = proof) := by
  obtain ⟨opts, r, -, hverifies, hlen, hexpected, rfl⟩ := prove_eq_ok h
  have hjournal := journal_of_expected hexpected
  have hdecode : ∀ hlen : (Z.journal r).length = 44, Contract.decode ⟨Z.journal r, hlen⟩
      = ((epochOf fx.computorsPacket).toUInt32, fx.queryId, E.qubicK12 fx.reply) := by
    intro hlen
    rw [← Contract.decode_encode]
    exact congrArg Contract.decode (Subtype.ext hjournal)
  constructor
  · intro devMode' allowFake t
    have hmode : Z.verifies devMode' (proofOf r).receipt = true ↔
        Z.inner (proofOf r).receipt ≠ .fake ∨ devMode' = true :=
      verifies_elsewhere hmodes hverifies devMode'
    rw [verify_eq_ok, hmode]
    constructor
    · rintro ⟨-, hfake, hprocess, hlen, rfl⟩
      exact ⟨by tauto, hdecode hlen⟩
    · rintro ⟨hfake, rfl⟩
      exact ⟨rfl, by tauto, by tauto, hlen, hdecode hlen⟩
  · intro devMode' allowFake t other hreceipt hother
    rw [(verify_eq_ok.mp hother).1, hreceipt]
    rfl

end Records

/-! ## What can be proved -/

/-- Outside dev mode, a run of the guest that commits a journal has a receipt of the kind that was
asked for, which verifies everywhere. -/
structure Zkvm.Complete (Z : Zkvm) (E : Externs) : Prop where
  prove : ∀ opts frames journal, Guest.main E frames = .ok journal →
    ∃ r, Z.proveWithOpts false opts frames = some r ∧ (∀ devMode, Z.verifies devMode r = true) ∧
      Z.journal r = journal
  inner : ∀ frames r, Z.proveWithOpts false .groth16 frames = some r → Z.inner r = .groth16

/-- The guest commits the journal that the host expects. -/
theorem expectedJournal_of_main {E : Externs} {fx : Fixture} {journal : Bytes}
    (h : Guest.main E (toEnv fx) = .ok journal) : expectedJournal E fx = .ok journal := by
  obtain ⟨queryId, hid, q, r, hsteps⟩ := steps_of_main h
  obtain rfl : queryId = bytesOfU64 fx.queryId := Subtype.ext hid
  obtain ⟨sorted, -, hmain⟩ := main_of_steps hsteps
  have hroom : (commitsFrame fx).length ≤ isizeMax32 := fits_of_main h _ (by simp)
  have hrun := (hmain (commitsFrame fx) hroom).symm.trans h
  obtain ⟨_, -, hjournal⟩ := bind_eq_ok.mp hrun
  cases hjournal
  exact expectedJournal_eq E hsteps.packetValid.size

theorem prove_of_main {E : Externs} {fx : Fixture} {journal : Bytes} (hZ : Z.Complete E)
    (h : Guest.main E (toEnv fx) = .ok journal) :
    ∃ r, prove Z false E fx "groth16" = .ok (proofOf r) ∧ Z.journal r = journal ∧
      (∀ devMode, Z.verifies devMode r = true) ∧ Z.inner r = .groth16 := by
  obtain ⟨r, hr, hverifies, rfl⟩ := hZ.prove .groth16 (toEnv fx) journal h
  have hexpected := expectedJournal_of_main h
  have hlen : (Z.journal r).length = journalSize := by
    rw [journal_of_expected hexpected]
    exact (Contract.encode _ _ _).property
  have he := epoch_of_expected hexpected
  refine ⟨r, ?_, rfl, hverifies, hZ.inner _ r hr⟩
  rw [prove]
  simp only [proverOpts, ok_bind, he, hr, Rust.expect, hverifies, hlen, hexpected, beq_self_eq_true,
    assert_true]
  rfl

/-! ## A small zkVM -/

/-- The receipt that is asked for. -/
def ProverOpts.inner : ProverOpts → InnerReceipt
  | .groth16 => .groth16
  | .succinct => .succinct
  | .composite => .composite

/-- Receipts are the journals of runs of the guest with their kind, which is fake in dev mode. -/
def demoZkvm (E : Externs) : Zkvm where
  Receipt := InnerReceipt × Bytes
  inner r := r.1
  journal r := r.2
  verifies devMode r := r.1 != .fake || devMode
  encodeSeal r := some r.2
  proveWithOpts devMode opts frames := (Guest.main E frames).toOption.map fun journal =>
    (if devMode then .fake else opts.inner, journal)
  imageId := ByteVec.zero 32
  hex b := b.flatMap fun c =>
    [Identity.hexDigit (c.toNat / 16), Identity.hexDigit (c.toNat % 16)]
  digestText d := d.val.flatMap fun c =>
    [Identity.hexDigit (c.toNat / 16), Identity.hexDigit (c.toNat % 16)]

theorem demoZkvm_fakeInDevMode (E : Externs) : (demoZkvm E).FakeInDevMode where
  fake := by
    rintro ⟨kind, journal⟩ rfl
    rfl
  genuine := by
    rintro ⟨kind, journal⟩ hkind devMode
    have hne : (kind != .fake) = true := bne_iff_ne.mpr hkind
    show (kind != .fake || devMode) = (kind != .fake || false)
    rw [hne, Bool.true_or, Bool.true_or]

theorem demoZkvm_complete (E : Externs) : (demoZkvm E).Complete E where
  prove opts frames journal h := by
    refine ⟨(opts.inner, journal), ?_, ?_, rfl⟩
    · show (Guest.main E frames).toOption.map _ = _
      rw [h]
      rfl
    · intro devMode
      cases opts with
      | groth16 => rfl
      | succinct => rfl
      | composite => rfl
  inner frames r h := by
    obtain ⟨journal, -, rfl⟩ := Option.map_eq_some_iff.mp h
    rfl

/-- The theorem at the record for the demo. -/
theorem proof_file_demo :
    let fx := GenFixture.demo.fixture GenFixture.demoExterns GenFixture.everyone
    ∃ proof : Proof (demoZkvm GenFixture.demoExterns),
      prove (demoZkvm GenFixture.demoExterns) false GenFixture.demoExterns fx "groth16"
        = .ok proof ∧
      (∀ devMode allowFake t, verify devMode allowFake proof = .ok t ↔
        ((demoZkvm GenFixture.demoExterns).inner proof.receipt ≠ .fake ∨
            (allowFake = true ∧ devMode = true)) ∧
          t = ((epochOf fx.computorsPacket).toUInt32, fx.queryId,
            GenFixture.demoExterns.qubicK12 fx.reply)) ∧
      (∀ devMode allowFake t (other : Proof (demoZkvm GenFixture.demoExterns)),
        other.receipt = proof.receipt → verify devMode allowFake other = .ok t →
          other = proof) := by
  obtain ⟨r, hprove, -⟩ := prove_of_main (demoZkvm_complete GenFixture.demoExterns)
    GenFixture.main_demo
  exact ⟨proofOf r, hprove, proof_file (demoZkvm_fakeInDevMode GenFixture.demoExterns) hprove⟩

end ZkQuorum.Host
