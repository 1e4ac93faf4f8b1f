import ZkQuorum.GenFixture.BuildTx
import ZkQuorum.Host.Run

/-!
# An oracle series (crypto/tools/gen_fixture.c)

The computors packet, the query, commit and reveal transactions as `main` of
`gen_fixture` builds them, without its negative options.

`main_of_honest` is the liveness of the guest statement: a series whose
signatures verify and in which 451 distinct computors commit is provable.
-/

namespace ZkQuorum.GenFixture

open LittleEndian Rust Guest Host

/-- What an oracle series is made from. -/
structure Series where
  epoch : UInt16
  comp : Vector Key numberOfComputors
  arb : Key
  user : Key
  queryId : UInt64
  queryTick : UInt32
  commitTick : UInt32
  revealTick : UInt32
  iface : UInt32
  timeoutMs : UInt32
  message : Bytes
  revealBy : Fin numberOfComputors

namespace Series

variable (E : Externs) (s : Series)

/-- `epoch | pubkeys`: the part of the packet the arbitrator signs. -/
def signedList : Bytes := ofU16 s.epoch ++ s.comp.toList.flatMap (·.pub.val)

/-- The computors packet. -/
def packet : Bytes := s.signedList ++ (s.arb.sign (E.qubicK12 s.signedList)).val

/-- The query transaction (inputType 10). -/
def queryTx : Bytes :=
  buildTx E s.user 1000 s.queryTick 10 (ofU32 s.iface ++ ofU32 s.timeoutMs ++ s.message)

/-- The item of a commit of computor `idx`. -/
def item (idx : Fin numberOfComputors) : Bytes :=
  ofU64 s.queryId ++ (E.qubicK12 s.message).val
    ++ (E.qubicK12 (s.message ++ ofU16 (UInt16.ofNat idx))).val

/-- The commit transaction of computor `idx` (inputType 6), with one item. -/
def commitTx (idx : Fin numberOfComputors) : Bytes :=
  buildTx E (s.comp.get idx) 0 s.commitTick 6 (s.item E idx)

/-- The reveal transaction (inputType 7): `queryId | reply`. -/
def revealTx : Bytes :=
  buildTx E (s.comp.get s.revealBy) 0 s.revealTick 7 (ofU64 s.queryId ++ s.message)

/-- An honest series: every signature verifies, the keys are distinct, the commits
come after the query and the message fits. What the query id says about the tick
is left to `main_of_honest`. -/
structure Honest : Prop where
  arbitrator : s.arb.pub = E.arbitratorPubkey
  arbSigns : Signs E s.arb
  userSigns : Signs E s.user
  compSigns : ∀ i : Fin numberOfComputors, Signs E (s.comp.get i)
  distinct : ∀ i j : Fin numberOfComputors, (s.comp.get i).pub = (s.comp.get j).pub → i = j
  epoch : s.epoch ≠ 0
  commitTick : s.queryTick < s.commitTick
  message : 8 + s.message.length < 2 ^ 16

variable {E s}

theorem length_signedList : s.signedList.length = packetSignedSize := by
  rw [signedList, List.length_append, length_ofU16,
    length_flatMap_blocks fun k _ => k.pub.property, Vector.length_toList]
  rfl

theorem length_packet : (s.packet E).length = packetSize := by
  rw [packet, List.length_append, length_signedList, ByteVec.length_val]
  rfl

theorem pubkeysOf_packet : pubkeysOf (s.packet E) = s.comp.toList.flatMap (·.pub.val) := by
  have hlen : (s.comp.toList.flatMap (·.pub.val)).length = numberOfComputors * 32 := by
    rw [length_flatMap_blocks fun k _ => k.pub.property, Vector.length_toList]
  rw [pubkeysOf, packet, signedList]
  exact take_drop_middle (length_ofU16 _) hlen

theorem pubkeyAt_packet (i : Fin numberOfComputors) :
    pubkeyAt (pubkeysOf (s.packet E)) i = (s.comp.get i).pub.val := by
  rw [pubkeysOf_packet, pubkeyAt, ← List.append_nil (List.flatMap _ _),
    take_drop_flatMap (fun k _ => k.pub.property) (by rw [Vector.length_toList]; exact i.isLt)]
  rfl

theorem listedAt_packet (i : Fin numberOfComputors) :
    ListedAt (pubkeysOf (s.packet E)) i (s.comp.get i).pub.val :=
  ⟨i.isLt, pubkeyAt_packet i⟩

theorem epochOf_packet : epochOf (s.packet E) = s.epoch := by
  rw [epochOf, packet, signedList, List.append_assoc, List.take_left' (length_ofU16 _), toU16_ofU16]

theorem packetValid_of_honest (h : s.Honest E) : PacketValid E (s.packet E) where
  size := length_packet
  signed := by
    refine ⟨s.arb.sign (E.qubicK12 s.signedList), ?_, ?_⟩
    · exact (List.drop_left' length_signedList).symm
    · rw [packet, List.take_left' length_signedList, ← h.arbitrator]
      exact h.arbSigns _
  epoch := by
    rw [epochOf_packet]
    exact h.epoch
  distinct := by
    intro i j hi hj hkey
    have hpub := (pubkeyAt_packet ⟨i, hi⟩).symm.trans (hkey.trans (pubkeyAt_packet ⟨j, hj⟩))
    exact congrArg Fin.val (h.distinct ⟨i, hi⟩ ⟨j, hj⟩ (Subtype.ext hpub))

theorem length_queryTx : (s.queryTx E).length = txHeaderSize + (8 + s.message.length) + 64 := by
  simp only [queryTx, length_buildTx, List.length_append, length_ofU32]

theorem length_revealTx : (s.revealTx E).length = txHeaderSize + (8 + s.message.length) + 64 := by
  simp only [revealTx, length_buildTx, List.length_append, length_ofU64]

/-- The query transaction of an honest series, apart from what its tick means. -/
theorem query_of_honest (h : s.Honest E) :
    ∃ q, parseTx (s.queryTx E) = .ok (some q) ∧ q.inputType = queryInputType ∧
      q.destIsZero = true ∧ SignatureValid E (s.queryTx E) q ∧ q.tick = s.queryTick := by
  have hinput : (ofU32 s.iface ++ ofU32 s.timeoutMs ++ s.message).length < 2 ^ 16 := by
    simp only [List.length_append, length_ofU32]
    exact h.message
  exact ⟨_, parseTx_buildTx E s.user 1000 s.queryTick 10 hinput, rfl, rfl,
    signatureValid_buildTx _ _ _ h.userSigns, rfl⟩

theorem queryValid_of_honest (h : s.Honest E)
    (htick : s.queryTick.toNat = s.queryId.toNat / 2 ^ 31) :
    ∃ q, QueryValid E (s.queryTx E) (bytesOfU64 s.queryId) q ∧ q.tick = s.queryTick := by
  obtain ⟨q, hparse, htype, hdest, hsig, hq⟩ := query_of_honest h
  exact ⟨q, { parses := hparse, inputType := htype, destination := hdest, signature := hsig,
              tick := by rw [hq, bytesOfU64, toNat_ofU64]; exact htick }, hq⟩

theorem revealValid_of_honest (h : s.Honest E) :
    ∃ r, RevealValid E (pubkeysOf (s.packet E)) (bytesOfU64 s.queryId) s.message
      (s.revealTx E) r := by
  have hinput : (ofU64 s.queryId ++ s.message).length < 2 ^ 16 := by
    rw [List.length_append, length_ofU64]
    exact h.message
  exact ⟨_, { parses := parseTx_buildTx E _ 0 s.revealTick 7 hinput
              inputType := rfl
              destination := rfl
              amount := rfl
              source := ⟨s.revealBy, listedAt_packet s.revealBy⟩
              signature := signatureValid_buildTx _ _ _ (h.compSigns s.revealBy)
              input := rfl }⟩

/-- An honest commit is valid for its computor. -/
theorem validCommit_of_honest (h : s.Honest E) (i : Fin numberOfComputors) :
    ValidCommit E (pubkeysOf (s.packet E)) (bytesOfU64 s.queryId) s.queryTick s.message
      (s.commitTx E i) i := by
  have hlen : (s.item E i).length = commitItemSize := by
    simp only [item, List.length_append, length_ofU64, ByteVec.length_val]
  have hinput : (s.item E i).length < 2 ^ 16 := by
    rw [hlen]
    decide
  exact ⟨_, { parses := parseTx_buildTx E _ 0 s.commitTick 6 hinput
              inputType := rfl
              destination := rfl
              amount := rfl
              tick := h.commitTick
              source := listedAt_packet i
              item := by
                refine ⟨0, Nat.le_of_eq (by rw [Nat.zero_add, Nat.one_mul]; exact hlen.symm), ?_⟩
                rw [Nat.zero_mul, List.drop_zero]
                exact List.take_of_length_le (Nat.le_of_eq hlen)
              signature := signatureValid_buildTx _ _ _ (h.compSigns i) }⟩

/-! ## The fixture of a series -/

/-- The fixture of a series in which some computors commit, in this order. -/
def fixture (E : Externs) (s : Series) (committing : List (Fin numberOfComputors)) : Fixture where
  computorsPacket := s.packet E
  queryId := s.queryId
  queryTx := s.queryTx E
  reply := s.message
  commitTxs := committing.map (s.commitTx E)
  revealTx := s.revealTx E

theorem fixtureSteps_of_honest (h : s.Honest E)
    (htick : s.queryTick.toNat = s.queryId.toNat / 2 ^ 31)
    (committing : List (Fin numberOfComputors)) :
    ∃ q r, FixtureSteps E (s.fixture E committing) q r ∧ q.tick = s.queryTick := by
  obtain ⟨q, hq, hqtick⟩ := queryValid_of_honest h htick
  obtain ⟨r, hr⟩ := revealValid_of_honest h
  exact ⟨q, r, { packetValid := packetValid_of_honest h, queryValid := hq, revealValid := hr },
    hqtick⟩

theorem length_commitTx (i : Fin numberOfComputors) : (s.commitTx E i).length = 216 := by
  simp only [commitTx, length_buildTx, item, List.length_append, length_ofU64, ByteVec.length_val]
  rfl

theorem length_commitsFrame (committing : List (Fin numberOfComputors)) :
    (commitsFrame (s.fixture E committing)).length = 4 + committing.length * 220 := by
  have hrecords : (Records.encodeAll (committing.map (s.commitTx E))).length
      = committing.length * 220 := by
    induction committing with
    | nil => rfl
    | cons i rest ih =>
      rw [List.map_cons, Records.encodeAll_cons, List.length_append, ih, Records.length_encode,
        length_commitTx, List.length_cons]
      omega
  rw [commitsFrame, List.length_append, length_ofU32]
  exact congrArg (4 + ·) hrecords

/-- The computors that commit in an honest series have a valid commit in it. -/
theorem card_le_committers (h : s.Honest E) (committing : List (Fin numberOfComputors)) :
    committing.toFinset.card
      ≤ (fixtureCommitters E (s.fixture E committing) s.queryTick).ncard := by
  have hfinite : (fixtureCommitters E (s.fixture E committing) s.queryTick).Finite :=
    (Set.finite_lt_nat numberOfComputors).subset fun i ⟨_, _, hi⟩ => hi.lt
  have hcard : committing.toFinset.card
      = ((committing.toFinset.map Fin.valEmbedding : Finset Nat) : Set Nat).ncard := by
    rw [Set.ncard_coe_finset, Finset.card_map]
  rw [hcard]
  refine Set.ncard_le_ncard ?_ hfinite
  intro i hi
  obtain ⟨k, hk, rfl⟩ := Finset.mem_map.mp hi
  exact ⟨s.commitTx E k, List.mem_map_of_mem (List.mem_toFinset.mp hk), validCommit_of_honest h k⟩

/-- **Liveness of the guest statement**: an honest series in which 451 distinct
computors commit is accepted. -/
theorem main_of_honest (h : s.Honest E)
    (htick : s.queryTick.toNat = s.queryId.toNat / 2 ^ 31)
    {committing : List (Fin numberOfComputors)} (hquorum : quorum ≤ committing.toFinset.card)
    (hlen : 4 + committing.length * 220 < 2 ^ 31) :
    main E (toEnv (s.fixture E committing))
      = .ok (journalOf s.epoch (bytesOfU64 s.queryId) (E.qubicK12 s.message)) := by
  obtain ⟨q, r, hsteps, hqtick⟩ := fixtureSteps_of_honest h htick committing
  have hD := Nat.le_trans hquorum (card_le_committers h committing)
  rw [← hqtick] at hD
  rw [main_toEnv_of_steps hsteps (by rw [length_commitsFrame]; exact hlen), if_pos hD,
    show epochOf (s.fixture E committing).computorsPacket = s.epoch from epochOf_packet]
  rfl

end Series

/-! ## A small series -/

/-- A key with the number `n` as its public key. -/
def demoKey (n : Nat) : Key where
  pub := ⟨ofNat 32 n, length_ofNat 32 n⟩
  sign _ := ByteVec.zero 64

/-- Constant hash values, and a verifier that accepts. -/
def demoExterns : Externs where
  qubicK12 _ := ByteVec.zero 32
  fourqVerify _ _ _ := true
  arbitratorPubkey := (demoKey 0).pub
  sort := Search.KeySort.mergeSort Bytes UInt16

/-- The series of the demo: epoch 999, query tick 1000000. -/
def demo : Series where
  epoch := 999
  comp := Vector.ofFn fun i => demoKey (i + 1)
  arb := demoKey 0
  user := demoKey 0
  queryId := 2147483648000000
  queryTick := 1000000
  commitTick := 1000004
  revealTick := 1000007
  iface := 0
  timeoutMs := 60000
  message := [0x5a, 0x4b]
  revealBy := 0

theorem demo_honest : demo.Honest demoExterns where
  arbitrator := rfl
  arbSigns _ := rfl
  userSigns _ := rfl
  compSigns _ _ := rfl
  distinct i j h := by
    have hkey : ∀ k : Fin numberOfComputors, toNat (demo.comp.get k).pub.val = k.val + 1 := by
      intro k
      have hlt : k.val + 1 < 256 ^ 32 := Nat.lt_trans (Nat.succ_lt_succ k.isLt) (by decide)
      have hcomp : demo.comp.get k = demoKey (k.val + 1) := by
        exact Vector.getElem_ofFn k.isLt
      rw [hcomp]
      exact toNat_ofNat_of_lt hlt
    have hij := hkey i
    rw [h, hkey j] at hij
    exact Fin.ext (by omega)
  epoch := by decide
  commitTick := by decide
  message := by decide

/-- All computors commit. -/
def everyone : List (Fin numberOfComputors) := List.finRange numberOfComputors

theorem quorum_le_everyone : quorum ≤ everyone.toFinset.card := by
  rw [everyone, List.toFinset_finRange, Finset.card_univ, Fintype.card_fin]
  decide

/-- The demo is accepted. -/
theorem main_demo : main demoExterns (toEnv (demo.fixture demoExterns everyone))
    = .ok (journalOf 999 (bytesOfU64 demo.queryId) (ByteVec.zero 32)) :=
  Series.main_of_honest demo_honest (by decide) quorum_le_everyone
    (by rw [everyone, List.length_finRange]; decide)

end ZkQuorum.GenFixture
