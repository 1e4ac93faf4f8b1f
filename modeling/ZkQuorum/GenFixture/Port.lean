import ZkQuorum.Crypto.Acceptance
import ZkQuorum.GenFixture.SelfChecks

/-!
# The fixture writer with its libraries (crypto/tools/gen_fixture.c)

The parameters of the writer are the functions of two libraries: the port, with which the guest
verifies (`portExterns`), and the reference, with which the writer signs (`referenceHost`), over
any hash that computes the challenges of the port.

- `generate_iff`: when a run passes its self-checks, for keys on whose signatures the verifier
  always answers the same;
- **`main_port_iff`**: so with the libraries a run writes a file just when none of the keys that it
  checks is taken for the neutral point.
-/

namespace ZkQuorum.GenFixture

open LittleEndian Guest Host Crypto

/-! ## Self-checks -/

/-- What the verifier answers on the signatures of a key. -/
def Answers (E : Externs) (k : Key) (answer : Bool) : Prop :=
  ∀ digest, E.fourqVerify k.pub (k.sign digest) digest = answer

section Checks

variable {E : Externs} {a : Args} {s : Series}

theorem verifyTx_of_answers {k : Key} {answer : Bool} (h : Answers E k answer) (amount : Int64)
    (tick : UInt32) (inputType : UInt16) (input : Bytes) :
    verifyTx E (buildTx E k amount tick inputType input) = answer := by
  rw [verifyTx, take_buildTx, drop_buildTx, take_source_buildTx, Rust.toArray_val, Rust.toArray_val]
  exact h _

/-- A commit is written when it is to be bad, or passes its self-check. -/
theorem commitTxAt_iff {n : Nat} {idx : Fin numberOfComputors} {answer : Bool}
    (h : Answers E (s.comp.get idx) answer) (item : Bytes) :
    (∃ tx, commitTxAt E a s n idx item = .ok tx) ↔
      (n < a.commits - a.badCommits → answer = true) := by
  unfold commitTxAt
  dsimp only
  rw [verifyTx_of_answers h]
  by_cases hbad : a.commits - a.badCommits ≤ n
  · rw [if_pos (decide_eq_true hbad)]
    exact ⟨fun _ hn => absurd hn (Nat.not_lt.mpr hbad), fun _ => ⟨_, rfl⟩⟩
  · rw [if_neg (by rw [decide_eq_false hbad]; exact Bool.false_ne_true)]
    constructor
    · rintro ⟨tx, hok⟩ -
      obtain ⟨⟨hanswer⟩, -, -⟩ := Rust.bind_eq_ok.mp hok
      exact hanswer
    · intro hanswer
      rw [require_of (hanswer (Nat.not_le.mp hbad)), Rust.ok_bind]
      exact ⟨_, rfl⟩

/-- The loop, by induction on the order. -/
theorem commitLoop_iff {d : Digests} {answer : Fin numberOfComputors → Bool}
    (h : ∀ i, Answers E (s.comp.get i) (answer i)) (order : List (Fin numberOfComputors)) :
    ∀ {n : Nat} {reply : Bytes}, (∃ txs, commitLoop E a s d n order reply = .ok txs) ↔
      ∀ idx ∈ order.take (a.commits - a.badCommits - n), answer idx = true := by
  induction order with
  | nil =>
    intro n reply
    rw [List.take_nil]
    exact ⟨fun _ idx hidx => (nomatch hidx), fun _ => ⟨[], rfl⟩⟩
  | cons idx order ih =>
    intro n reply
    rcases hitem : commitItem E a s d n idx reply with ⟨item, reply'⟩
    -- the loop ends when this commit is built and the rest of the loop ends
    have hsplit : (∃ txs, commitLoop E a s d n (idx :: order) reply = .ok txs) ↔
        (∃ tx, commitTxAt E a s n idx item = .ok tx) ∧
          ∃ txs, commitLoop E a s d (n + 1) order reply' = .ok txs := by
      rw [commitLoop, hitem]
      constructor
      · rintro ⟨txs, hok⟩
        obtain ⟨tx, htx, hok⟩ := Rust.bind_eq_ok.mp hok
        obtain ⟨rest, hrest, -⟩ := Rust.bind_eq_ok.mp hok
        exact ⟨⟨tx, htx⟩, rest, hrest⟩
      · rintro ⟨⟨tx, htx⟩, rest, hrest⟩
        refine ⟨tx :: rest, ?_⟩
        show (commitTxAt E a s n idx item >>= _) = _
        rw [htx, Rust.ok_bind, hrest]
        rfl
    rw [hsplit, commitTxAt_iff (h idx), ih]
    -- only the commits in front of the bad ones are checked
    by_cases hn : n < a.commits - a.badCommits
    · have hpos : a.commits - a.badCommits - n = a.commits - a.badCommits - (n + 1) + 1 := by omega
      rw [hpos, List.take_succ_cons, List.forall_mem_cons]
      exact and_congr_left fun _ => ⟨fun hanswer => hanswer hn, fun hanswer _ => hanswer⟩
    · have hzero : a.commits - a.badCommits - n = 0 := by omega
      have hzero' : a.commits - a.badCommits - (n + 1) = 0 := by omega
      rw [hzero, hzero', List.take_zero, List.take_zero]
      exact and_iff_right fun hlt => absurd hlt hn

/-- The computors whose commits are checked. -/
def checkedComputors (a : Args) : List (Fin numberOfComputors) :=
  (orderOf a).take (a.commits - a.badCommits)

/-- **When no self-check fails.** -/
theorem generate_iff {u : Setup} {arb user : Bool} {answer : Fin numberOfComputors → Bool}
    (harb : Answers E u.series.arb arb) (huser : Answers E u.series.user user)
    (hcomp : ∀ i, Answers E (u.series.comp.get i) (answer i)) :
    (∃ out, generate E u = .ok out) ↔ arb = true ∧ user = true ∧
      (∀ idx ∈ checkedComputors u.args, answer idx = true) ∧ answer u.series.revealBy = true := by
  have hquery : verifyTx E (u.series.queryTx E) = user := verifyTx_of_answers huser _ _ _ _
  have hreveal : verifyTx E (u.series.revealTx E) = answer u.series.revealBy :=
    verifyTx_of_answers (hcomp _) _ _ _ _
  have hloop : (∃ txs, commitLoop E u.args u.series (digestsOf E u.series) 0 (orderOf u.args)
      (replyBuffer u.series) = .ok txs) ↔ ∀ idx ∈ checkedComputors u.args, answer idx = true :=
    commitLoop_iff hcomp _
  rw [generate_eq]
  dsimp only
  rw [harb, hquery, hreveal, ← hloop]
  constructor
  · rintro ⟨out, hok⟩
    obtain ⟨⟨h1⟩, -, hok⟩ := Rust.bind_eq_ok.mp hok
    obtain ⟨⟨h2⟩, -, hok⟩ := Rust.bind_eq_ok.mp hok
    obtain ⟨txs, htxs, hok⟩ := Rust.bind_eq_ok.mp hok
    obtain ⟨⟨h3⟩, -, -⟩ := Rust.bind_eq_ok.mp hok
    exact ⟨h1, h2, ⟨txs, htxs⟩, h3⟩
  · rintro ⟨h1, h2, ⟨txs, htxs⟩, h3⟩
    rw [require_of h1, Rust.ok_bind, require_of h2, Rust.ok_bind, htxs, Rust.ok_bind,
      require_of h3, Rust.ok_bind]
    exact ⟨_, rfl⟩

end Checks

/-! ## The libraries -/

/-- `qubic_k12` and `fourq_verify`. -/
def portExterns (build : Build) (arbitratorPubkey : ByteVec 32)
    (sort : Search.KeySort Bytes UInt16) : Externs where
  qubicK12 input := Stock.k12.out32 input
  fourqVerify publicKey signature messageDigest :=
    Crypto.verify build publicKey messageDigest signature
  arbitratorPubkey
  sort

/-- `qubic_seed_to_subseed`, `qubic_subseed_to_keys` and `qubic_sign`. -/
def referenceHost (K : Stock.Hash) : StockHost where
  kangarooTwelve := K.out32
  publicKey subseed := Stock.getPublicKey (Stock.getPrivateKey K subseed)
  sign := Stock.sign K

/-- `getSubseed` behind its wrapper. -/
theorem seedToSubseed_referenceHost (K : Stock.Hash) (seed : ByteVec 55) :
    seedToSubseed (referenceHost K) seed.val = Stock.getSubseed K seed := by
  have hlower : ∀ c : UInt8, isLower c = !(decide (c < 97) || decide (c > 122)) := by
    intro c
    rw [isLower, Bool.eq_iff_iff]
    simp only [Bool.and_eq_true, Bool.not_eq_true', Bool.or_eq_false_iff, decide_eq_true_eq,
      decide_eq_false_iff_not, gt_iff_lt, UInt8.not_lt]
  rw [seedToSubseed, Stock.getSubseed, funext hlower]
  rfl

section Libraries

variable {build : Build} {arbitratorPubkey : ByteVec 32} {sort : Search.KeySort Bytes UInt16}
  {K : Stock.Hash} {files : CString → Option Bytes} {argv : List CString} {u : Setup}

theorem answers_keyOf (hK : Stock.SharesChallenge K) {k : Key}
    (hk : ∃ subseed, k = keyOf (referenceHost K) subseed) :
    Answers (portExterns build arbitratorPubkey sort) k (!neutralKey k.pub) := by
  obtain ⟨subseed, rfl⟩ := hk
  exact fun digest => Stock.verify_sign K subseed digest build hK

/-- **With the libraries a run writes a file** just when none of the keys that it checks is taken
for the neutral point. -/
theorem main_port_iff (hK : Stock.SharesChallenge K)
    (hsetup : setup (referenceHost K) files argv = .ok u) :
    (∃ out, main (portExterns build arbitratorPubkey sort) (referenceHost K) files argv = .ok out) ↔
      neutralKey u.series.arb.pub = false ∧ neutralKey u.series.user.pub = false ∧
        (∀ idx ∈ checkedComputors u.args, neutralKey (u.series.comp.get idx).pub = false) ∧
          neutralKey (u.series.comp.get u.series.revealBy).pub = false := by
  obtain ⟨hcomp, harb, huser, -⟩ := setup_eq_ok hsetup
  rw [main_of_setup hsetup, generate_iff (answers_keyOf hK harb) (answers_keyOf hK huser)
    fun i => answers_keyOf hK (hcomp i)]
  simp only [Bool.not_eq_true']

end Libraries

/-- The seed files of the demo, read with the reference over the hash of the port. -/
theorem exists_setup_port :
    ∃ u, setup (referenceHost Stock.k12) demoFiles demoArgv = .ok u ∧ u.args = demoArgs := by
  have hlen : (demoSeeds.map (deriveSeed (referenceHost Stock.k12))).length
      = numberOfComputors := by
    rw [List.length_map, demoSeeds, List.length_ofFn]
  refine ⟨_, setup_of_seeds (o := demoArgs.options) (by decide +kernel) (checkArgs_options demoArgs)
    rfl ?_ hlen rfl ?_ ?_, rfl⟩
  · intro s hs
    obtain ⟨i, rfl⟩ := (List.mem_ofFn' _ _).mp hs
    exact isSeed_demoSeed i
  · exact isSeed_replicate rfl
  · exact isSeed_replicate rfl

/-- The theorem at these files. -/
theorem main_port_iff_demo : ∃ u, setup (referenceHost Stock.k12) demoFiles demoArgv = .ok u ∧
    ((∃ out, main (portExterns .portable (ByteVec.zero 32) (Search.KeySort.mergeSort Bytes UInt16))
        (referenceHost Stock.k12) demoFiles demoArgv = .ok out) ↔
      neutralKey u.series.arb.pub = false ∧ neutralKey u.series.user.pub = false ∧
        (∀ idx ∈ checkedComputors u.args, neutralKey (u.series.comp.get idx).pub = false) ∧
          neutralKey (u.series.comp.get u.series.revealBy).pub = false) := by
  obtain ⟨u, hsetup, -⟩ := exists_setup_port
  exact ⟨u, hsetup, main_port_iff Stock.sharesChallenge_k12 hsetup⟩

end ZkQuorum.GenFixture
