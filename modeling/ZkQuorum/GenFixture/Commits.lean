import ZkQuorum.GenFixture.Main

/-!
# The commits of the fixture writer (crypto/tools/gen_fixture.c)

Which of the commits that the loop writes are valid.

- `perm_commitOrder`: the shuffle leaves a permutation of the computors, and
  `getElem?_commitOrder` says where each of them lands.
- `take_writeAt` and `take_writeAt_le` are the reply buffer: what is written behind the
  reply leaves the reply, and what is hashed is the reply and the index.
- `commitLoop_eq`: the commits before both suffixes are honest ones, and no commit in
  one of the suffixes is valid for any computor. The suffixes overlap, so what is left is
  what the longer one leaves (`goodCommits`).
-/

namespace ZkQuorum.GenFixture

open LittleEndian Guest

/-! ## The order -/

section Order

variable {α : Type} {n : Nat}

theorem toList_vectorOf (l : List α) (h : l.length = n) : (vectorOf l h).toList = l := rfl

theorem perm_swapIfInBounds (order : Vector α n) (i j : Nat) :
    (order.swapIfInBounds i j).toList.Perm order.toList := by
  show (order.toArray.swapIfInBounds i j).toList.Perm order.toArray.toList
  rw [Array.swapIfInBounds_def]
  split
  · split
    · exact (Array.swap_perm _ _).toList
    · exact .refl _
  · exact .refl _

/-- The shuffle only swaps. -/
theorem perm_fisherYates (i : Nat) (x : UInt64) (order : Vector α n) :
    (fisherYates i x order).toList.Perm order.toList := by
  induction i generalizing x order with
  | zero => exact .refl _
  | succ i ih =>
    rw [fisherYates]
    exact (ih _ _).trans (perm_swapIfInBounds _ _ _)

theorem perm_commitOrder (shuffle : Bool) :
    (commitOrder shuffle).toList.Perm (List.finRange numberOfComputors) := by
  cases shuffle with
  | false => rw [commitOrder, if_neg Bool.false_ne_true, toList_vectorOf]
  | true =>
    rw [commitOrder, if_pos rfl]
    refine (perm_fisherYates _ _ _).trans ?_
    rw [toList_vectorOf]

/-- Where the loop puts what is at position `p`. -/
def place : Nat → UInt64 → Nat → Nat
  | 0, _, p => p
  | i + 1, x, p =>
    let x := xorshift64 x
    let j := (x % UInt64.ofNat (i + 2)).toNat
    place i x (if p = i + 1 then j else if p = j then i + 1 else p)

theorem getElem?_swapIfInBounds {order : Vector α n} {i j p : Nat} (hi : i < n) (hj : j < n) :
    (order.swapIfInBounds i j).toList[if p = i then j else if p = j then i else p]?
      = order.toList[p]? := by
  have hsize : order.toArray.size = n := order.size_toArray
  show (order.toArray.swapIfInBounds i j).toList[_]? = order.toArray.toList[p]?
  rw [Array.swapIfInBounds_def, dif_pos (by rw [hsize]; exact hi),
    dif_pos (by rw [hsize]; exact hj)]
  simp only [Array.getElem?_toList, Array.getElem?_swap]
  split_ifs <;> grind

theorem getElem?_fisherYates {i p : Nat} (hn : n < 2 ^ 64) (hi : i < n) (x : UInt64)
    (order : Vector α n) : (fisherYates i x order).toList[place i x p]? = order.toList[p]? := by
  induction i generalizing x order p with
  | zero => rfl
  | succ i ih =>
    have hmod : (xorshift64 x % UInt64.ofNat (i + 2)).toNat < i + 2 := by
      rw [UInt64.toNat_mod, UInt64.toNat_ofNat', Nat.mod_eq_of_lt (a := i + 2) (by omega)]
      exact Nat.mod_lt _ (by omega)
    rw [fisherYates, place, ih (by omega), getElem?_swapIfInBounds hi (by omega)]

/-- The position of a computor in the order. -/
def placeOf (shuffle : Bool) (idx : Nat) : Nat :=
  if shuffle then place (numberOfComputors - 1) 0x9e3779b97f4a7c15 idx else idx

/-- Each computor is at its place, and nowhere else. -/
theorem getElem?_commitOrder {shuffle : Bool} {n : Nat} {idx : Fin numberOfComputors} :
    (commitOrder shuffle).toList[n]? = some idx ↔ n = placeOf shuffle idx := by
  have hplace : (commitOrder shuffle).toList[placeOf shuffle idx]? = some idx := by
    have hidx : (List.finRange numberOfComputors)[(idx : Nat)]? = some idx := by
      rw [List.getElem?_eq_getElem (by rw [List.length_finRange]; exact idx.isLt),
        List.getElem_finRange]
      rfl
    cases shuffle with
    | false =>
      simp only [commitOrder, placeOf, Bool.false_eq_true, if_false, toList_vectorOf]
      exact hidx
    | true =>
      simp only [commitOrder, placeOf, if_true]
      rw [getElem?_fisherYates (by decide) (by decide), toList_vectorOf]
      exact hidx
  constructor
  · intro h
    have hnodup := (perm_commitOrder shuffle).nodup_iff.mpr (List.nodup_finRange _)
    exact (List.getElem?_inj (List.getElem?_eq_some_iff.mp h).1 hnodup).mp (h.trans hplace.symm)
  · rintro rfl
    exact hplace

end Order

/-! ## The reply buffer -/

section Buffer

variable {buf a : Bytes} {off : Nat}

/-- A write inside the buffer keeps its length. -/
theorem length_writeAt {src : Bytes} (h : off + src.length ≤ buf.length) :
    (writeAt buf off src).length = buf.length := by
  rw [writeAt, List.length_append, List.length_append, List.length_take, List.length_drop]
  omega

theorem take_writeAt (src : Bytes) (h : buf.take off = a) (ha : a.length = off) :
    (writeAt buf off src).take (off + src.length) = a ++ src := by
  rw [writeAt, h]
  apply List.take_left'
  rw [List.length_append, ha]

/-- What is written behind a part leaves the part. -/
theorem take_writeAt_le {n : Nat} (src : Bytes) (h : buf.take n = a) (ha : a.length = n)
    (hoff : n ≤ off) :
    (writeAt buf off src).take n = a := by
  have hlen : n ≤ (buf.take off).length := by
    have hbuf := congrArg List.length h
    rw [List.length_take, ha] at hbuf
    rw [List.length_take]
    omega
  rw [writeAt, List.append_assoc, List.take_append_of_le_length hlen, List.take_take,
    Nat.min_eq_left hoff, h]

end Buffer

/-! ## Signatures -/

/-- A signature with its byte 7 inverted. -/
def invertSig (sig : ByteVec 64) : ByteVec 64 :=
  ⟨invertByte sig.val 7, (List.length_modify _ _ _).trans sig.property⟩

/-- A key that signs with byte 7 inverted. -/
def Key.inverted (k : Key) : Key where
  pub := k.pub
  sign d := invertSig (k.sign d)

section Transactions

variable (E : Externs) (k : Key) (amount : Int64) (tick : UInt32) (inputType : UInt16)
  (input : Bytes)

theorem drop_buildTx :
    (buildTx E k amount tick inputType input).drop
        ((buildTx E k amount tick inputType input).length - signatureSize)
      = (k.sign (E.qubicK12 (signedPart k amount tick inputType input))).val := by
  rw [length_buildTx, Nat.add_sub_cancel]
  exact List.drop_left' (length_signedPart k amount tick inputType input)

theorem take_source_buildTx : (buildTx E k amount tick inputType input).take 32 = k.pub.val := by
  simp only [buildTx, signedPart, List.append_assoc]
  exact List.take_left' k.pub.property

/-- The self-check passes on what was just signed. -/
theorem verifyTx_buildTx (h : Signs E k) :
    verifyTx E (buildTx E k amount tick inputType input) = true := by
  rw [verifyTx, take_buildTx, drop_buildTx, take_source_buildTx, Rust.toArray_val, Rust.toArray_val]
  exact h _

/-- A transaction with a byte of its signature inverted. -/
theorem invertByte_buildTx :
    invertByte (buildTx E k amount tick inputType input) (txHeaderSize + input.length + 7)
      = buildTx E k.inverted amount tick inputType input := by
  rw [invertByte, buildTx, ← length_signedPart k amount tick inputType input]
  exact List.modifyTailIdx_add _ _ _ _

end Transactions

/-! ## Which commits are valid -/

/-- The rule of the guest on the packet, the query and the reply of a series. -/
abbrev CountsFor (E : Externs) (s : Series) (raw : Bytes) (i : Nat) : Prop :=
  ValidCommit E (pubkeysOf (s.packet E)) (bytesOfU64 s.queryId) s.queryTick s.message raw i

section Valid

variable {E : Externs} {s : Series} {k : Key} {amount : Int64} {tick : UInt32}
  {inputType : UInt16} {i : Nat}

theorem countsFor_commitTx (h : s.Honest E) (idx : Fin numberOfComputors) :
    CountsFor E s (s.commitTx E idx) i ↔ i = idx := by
  have hvalid := Series.validCommit_of_honest h idx
  constructor
  · intro hi
    exact hi.unique (Series.packetValid_of_honest h).distinct hvalid
  · rintro rfl
    exact hvalid

/-- A commit with an inverted byte in its signature counts for nobody. -/
theorem not_countsFor_inverted
    (hrejects : ∀ d, E.fourqVerify k.pub (invertSig (k.sign d)) d = false)
    {input : Bytes} (hinput : input.length < 2 ^ 16) :
    ¬ CountsFor E s (buildTx E k.inverted amount tick inputType input) i := by
  rintro ⟨tx, h⟩
  have hparse := h.parses.symm.trans (parseTx_buildTx E k.inverted amount tick inputType hinput)
  cases hparse
  obtain ⟨pk, sig, hpk, hsig, hverify⟩ := h.signature
  rw [take_buildTx, Subtype.ext hpk, Subtype.ext hsig] at hverify
  exact absurd (hverify.symm.trans (hrejects _)) Bool.noConfusion

/-- A commit to another digest counts for nobody. -/
theorem not_countsFor_wrong {q : UInt64} {d kp : ByteVec 32} (hd : d ≠ E.qubicK12 s.message) :
    ¬ CountsFor E s (buildTx E k amount tick inputType (ofU64 q ++ d.val ++ kp.val)) i := by
  have hlen : (ofU64 q ++ d.val ++ kp.val).length = commitItemSize := by
    simp only [List.length_append, length_ofU64, ByteVec.length_val]
  have hinput : (ofU64 q ++ d.val ++ kp.val).length < 2 ^ 16 := by
    rw [hlen]
    decide
  rintro ⟨tx, h⟩
  have hparse := h.parses.symm.trans (parseTx_buildTx E k amount tick inputType hinput)
  cases hparse
  -- one item, so it is the one that would have to match
  obtain ⟨n, hn, hitem⟩ := h.item
  have hle : (n + 1) * commitItemSize ≤ commitItemSize := hlen ▸ hn
  obtain rfl : n = 0 := by
    simp only [commitItemSize] at hle
    omega
  have heq : ofU64 q ++ d.val ++ kp.val = (bytesOfU64 s.queryId).val
      ++ (E.qubicK12 s.message).val ++ (E.qubicK12 (s.message ++ ofU16 (UInt16.ofNat i))).val := by
    rw [← hitem, Nat.zero_mul, List.drop_zero]
    exact (List.take_of_length_le (Nat.le_of_eq hlen)).symm
  rw [List.append_assoc, List.append_assoc] at heq
  obtain ⟨-, htail⟩ := List.append_inj heq (by rw [length_ofU64, ByteVec.length_val])
  obtain ⟨hdigest, -⟩ := List.append_inj htail (by rw [ByteVec.length_val, ByteVec.length_val])
  exact hd (Subtype.ext hdigest)

end Valid

/-! ## The loop -/

/-- The computors that commit, in their order. -/
def orderOf (a : Args) : List (Fin numberOfComputors) :=
  (commitOrder a.shuffle).toList.take a.commits

theorem length_orderOf (a : Args) : (orderOf a).length = a.commits := by
  rw [orderOf, List.length_take, Vector.length_toList, Nat.min_eq_left a.commits_le]

/-- The reply buffer before the loop: the message with an `x` behind it. -/
def replyBuffer (s : Series) : Bytes :=
  writeAt (writeAt (List.replicate (maxReply + 3) 0) 0 s.message) s.message.length (ascii "x")

/-- The digests of the message, and of the message with an `x`. -/
def digestsOf (E : Externs) (s : Series) : Digests where
  reply := E.qubicK12 s.message
  wrongReply := E.qubicK12 (s.message ++ ascii "x")

theorem take_replyBuffer (s : Series) :
    (replyBuffer s).take (s.message.length + 1) = s.message ++ ascii "x" := by
  have hempty : (List.replicate (maxReply + 3) (0 : UInt8)).take 0 = [] := List.take_zero
  have hmessage := take_writeAt s.message hempty List.length_nil
  rw [Nat.zero_add, List.nil_append] at hmessage
  exact take_writeAt (ascii "x") hmessage rfl

/-- What is hashed before the loop is the message, and the message with an `x`. -/
theorem generate_eq (E : Externs) (u : Setup) : generate E u = (do
    let d := E.qubicK12 u.series.signedList
    let _ ← require (E.fourqVerify u.series.arb.pub (u.series.arb.sign d) d)
      (.die "self-check: packet signature invalid")
    let _ ← require (verifyTx E (u.series.queryTx E)) (.die "self-check: query signature invalid")
    let commitTxs ← commitLoop E u.args u.series (digestsOf E u.series) 0 (orderOf u.args)
      (replyBuffer u.series)
    let _ ← require (verifyTx E (u.series.revealTx E)) (.die "self-check: reveal signature invalid")
    return outputOf E u (E.qubicK12 u.series.message) commitTxs) := by
  have hempty : (List.replicate (maxReply + 3) (0 : UInt8)).take 0 = [] := List.take_zero
  have hmessage := take_writeAt u.series.message hempty List.length_nil
  rw [Nat.zero_add, List.nil_append] at hmessage
  have hx := take_replyBuffer u.series
  unfold replyBuffer at hx
  unfold generate
  dsimp only
  rw [hmessage, hx]
  rfl

/-- The commits before both suffixes. -/
def goodCommits (a : Args) : Nat := a.commits - max a.badCommits a.wrongDigest

section Loop

variable {E : Externs} {a : Args} {s : Series} {d : Digests} {n : Nat}
  {idx : Fin numberOfComputors} {reply : Bytes}

theorem commitItem_reply (h : reply.take s.message.length = s.message) :
    (commitItem E a s d n idx reply).2.take s.message.length = s.message := by
  unfold commitItem
  dsimp only
  split
  · exact take_writeAt_le _ h rfl (Nat.le_succ _)
  · exact take_writeAt_le _ h rfl (Nat.le_refl _)

theorem length_commitItem : (commitItem E a s d n idx reply).1.length = commitItemSize := by
  simp only [commitItem, List.length_append, length_ofU64, ByteVec.length_val]

/-- The item of a position before the wrong ones is that of an honest commit. -/
theorem commitItem_right (hreplay : a.replay = false) (hn : n < a.commits - a.wrongDigest)
    (hd : d.reply = E.qubicK12 s.message) (h : reply.take s.message.length = s.message) :
    (commitItem E a s d n idx reply).1 = s.item E idx := by
  have hwrong : decide (a.commits - a.wrongDigest ≤ n) = false :=
    decide_eq_false (Nat.not_le.mpr hn)
  have hhashed := take_writeAt (ofU16 (UInt16.ofNat idx)) h rfl
  rw [length_ofU16] at hhashed
  simp only [commitItem, hwrong, hreplay, Bool.false_eq_true, if_false, UInt64.add_zero, hhashed,
    hd, Series.item]

theorem commitItem_wrong (E : Externs) (s : Series) (d : Digests) (idx : Fin numberOfComputors)
    (reply : Bytes) (hn : a.commits - a.wrongDigest ≤ n) :
    ∃ (q : UInt64) (kp : ByteVec 32),
      (commitItem E a s d n idx reply).1 = ofU64 q ++ d.wrongReply.val ++ kp.val := by
  have hwrong : decide (a.commits - a.wrongDigest ≤ n) = true := decide_eq_true hn
  simp only [commitItem, hwrong, if_true]
  exact ⟨_, _, rfl⟩

theorem commitTxAt_eq (h : Signs E (s.comp.get idx)) {item : Bytes}
    (hitem : item.length = commitItemSize) :
    commitTxAt E a s n idx item
      = .ok (buildTx E (if a.commits - a.badCommits ≤ n then (s.comp.get idx).inverted
          else s.comp.get idx) 0 s.commitTick 6 item) := by
  unfold commitTxAt
  by_cases hbad : a.commits - a.badCommits ≤ n
  · have hinvert := invertByte_buildTx E (s.comp.get idx) 0 s.commitTick 6 item
    rw [hitem] at hinvert
    simp only [hbad, decide_true, if_true]
    exact congrArg Except.ok hinvert
  · have hverify := verifyTx_buildTx E (s.comp.get idx) 0 s.commitTick 6 item h
    simp only [hbad, decide_false, Bool.false_eq_true, if_false]
    rw [require, dif_pos hverify]
    rfl

theorem goodCommits_le (a : Args) : goodCommits a ≤ a.commits := Nat.sub_le _ _

theorem lt_goodCommits_iff : n < goodCommits a
    ↔ n < a.commits - a.badCommits ∧ n < a.commits - a.wrongDigest := by
  unfold goodCommits
  omega

/-- What the commits need: a reply that does not hash like the one with an `x`, and keys
that reject their own signatures with byte 7 inverted. -/
structure Negative (E : Externs) (s : Series) (d : Digests) : Prop where
  reply : d.reply = E.qubicK12 s.message
  wrongReply : d.wrongReply ≠ E.qubicK12 s.message
  rejects : ∀ (i : Fin numberOfComputors) (digest : ByteVec 32),
    E.fourqVerify (s.comp.get i).pub (invertSig ((s.comp.get i).sign digest)) digest = false

/-- One round of the loop: an honest commit before both suffixes, and one that counts for
nobody in either. -/
theorem commitRound (n : Nat) (idx : Fin numberOfComputors) (h : s.Honest E)
    (hneg : Negative E s d) (hreplay : a.replay = false)
    (hreply : reply.take s.message.length = s.message) :
    ∃ tx, commitTxAt E a s n idx (commitItem E a s d n idx reply).1 = .ok tx ∧ tx.length = 216 ∧
      if n < goodCommits a then tx = s.commitTx E idx else ∀ i, ¬ CountsFor E s tx i := by
  have hlen : (commitItem E a s d n idx reply).1.length = commitItemSize := length_commitItem
  refine ⟨_, commitTxAt_eq (h.compSigns idx) hlen, ?_, ?_⟩
  · rw [length_buildTx, hlen]
    rfl
  · by_cases hgood : n < goodCommits a
    · obtain ⟨hbad, hwrong⟩ := lt_goodCommits_iff.mp hgood
      rw [if_pos hgood, if_neg (Nat.not_le.mpr hbad),
        commitItem_right hreplay hwrong hneg.reply hreply, Series.commitTx]
    · rw [if_neg hgood]
      intro i
      -- an inverted signature refuses the commit whatever its item says
      by_cases hbad : a.commits - a.badCommits ≤ n
      · rw [if_pos hbad]
        exact not_countsFor_inverted (hneg.rejects idx) (hlen ▸ by decide)
      · have hwrong : a.commits - a.wrongDigest ≤ n := by
          rw [lt_goodCommits_iff] at hgood
          omega
        obtain ⟨q, kp, hitem⟩ := commitItem_wrong E s d idx reply hwrong
        rw [if_neg hbad, hitem]
        exact not_countsFor_wrong hneg.wrongReply

/-- **The loop writes the honest commits of a prefix of the order, and then commits that
count for nobody**, by induction on the order. -/
theorem commitLoop_eq (h : s.Honest E) (hneg : Negative E s d) (hreplay : a.replay = false)
    (order : List (Fin numberOfComputors)) :
    ∀ {n : Nat} {reply : Bytes}, reply.take s.message.length = s.message →
      ∃ rest, commitLoop E a s d n order reply
          = .ok ((order.take (goodCommits a - n)).map (s.commitTx E) ++ rest) ∧
        rest.length = (order.drop (goodCommits a - n)).length ∧
        (∀ tx ∈ rest, tx.length = 216) ∧ ∀ tx ∈ rest, ∀ i, ¬ CountsFor E s tx i := by
  induction order with
  | nil =>
    intro n reply _
    rw [List.take_nil, List.drop_nil]
    exact ⟨[], rfl, rfl, fun tx htx => (nomatch htx), fun tx htx => (nomatch htx)⟩
  | cons idx order ih =>
    intro n reply hreply
    -- the item may have written into the reply buffer, but only past the message
    obtain ⟨tx, htx, hlen, hcounts⟩ := commitRound n idx h hneg hreplay hreply
    obtain ⟨rest, hloop, hrest, hlens, hnone⟩ := ih (n := n + 1) (commitItem_reply hreply)
    rw [commitLoop]
    dsimp only
    rw [htx, Rust.ok_bind, hloop, Rust.ok_bind]
    by_cases hgood : n < goodCommits a
    · rw [if_pos hgood] at hcounts
      have hn : goodCommits a - n = goodCommits a - (n + 1) + 1 := by omega
      rw [hn, List.take_succ_cons, List.drop_succ_cons, List.map_cons, hcounts]
      exact ⟨rest, rfl, hrest, hlens, hnone⟩
    · rw [if_neg hgood] at hcounts
      have hn : goodCommits a - n = 0 := by omega
      have hn' : goodCommits a - (n + 1) = 0 := by omega
      rw [hn'] at hrest
      rw [hn, hn', List.take_zero, List.take_zero]
      refine ⟨tx :: rest, rfl, congrArg (· + 1) hrest, ?_, ?_⟩
      · intro t ht
        rcases List.mem_cons.mp ht with rfl | hmem
        · exact hlen
        · exact hlens t hmem
      · intro t ht
        rcases List.mem_cons.mp ht with rfl | hmem
        · exact hcounts
        · exact hnone t hmem

end Loop

end ZkQuorum.GenFixture
