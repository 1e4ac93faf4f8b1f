import ZkQuorum.GenFixture.Report

/-!
# What the negative commits contain (crypto/tools/gen_fixture.c)

A commit in the `--wrong-digest` suffix is meant to be a good commit to another reply, the
message with an `x` behind it. The loop hashes right and wrong proofs out of one buffer, and
a right commit writes its computor index over the `x`.

- `Marked` is the invariant of the buffer: the message, and behind it the byte that the
  last right commit left (`mark`).
- `commitTxs_of_generate`: what the item of each position is, with that byte.
- `finalMark_eq_x_iff`: the byte is an `x` after four numbers of right commits.
- **`negativeCommits_iff`**: the items are the intended ones just when there is no suffix, or
  it starts after such a number of right commits, or K collides.
-/

namespace ZkQuorum.GenFixture

open LittleEndian Guest

/-! ## The items -/

/-- The item of a commit of computor `idx` to a reply. -/
def replyItem (E : Externs) (a : Args) (s : Series) (idx : Fin numberOfComputors) (reply : Bytes) :
    Bytes :=
  ofU64 (s.queryId + if a.replay then 1 else 0) ++ (E.qubicK12 reply).val
    ++ (E.qubicK12 (reply ++ ofU16 (UInt16.ofNat idx))).val

/-- The item that position `n` is meant to have: it commits to the message, or in the suffix
to the message with an `x`. -/
def intendedItem (E : Externs) (a : Args) (s : Series) (n : Nat) (idx : Fin numberOfComputors) :
    Bytes :=
  replyItem E a s idx (if a.commits - a.wrongDigest ≤ n then s.message ++ ascii "x" else s.message)

/-- The item with a byte `b` behind the message where the knowledge proof of the suffix has
its `x`. -/
def itemWith (E : Externs) (a : Args) (s : Series) (b : UInt8) (n : Nat)
    (idx : Fin numberOfComputors) : Bytes :=
  if a.commits - a.wrongDigest ≤ n then
    ofU64 (s.queryId + if a.replay then 1 else 0) ++ (E.qubicK12 (s.message ++ ascii "x")).val
      ++ (E.qubicK12 (s.message ++ [b] ++ ofU16 (UInt16.ofNat idx))).val
  else replyItem E a s idx s.message

/-- The byte behind the message after some right commits: an `x`, or the low byte of the
last computor. -/
def leftBehind (computors : List (Fin numberOfComputors)) : UInt8 :=
  match computors.getLast? with
  | none => 0x78
  | some idx => UInt8.ofNat idx

/-- The byte behind the message before position `n`. -/
def mark (a : Args) (n : Nat) : UInt8 :=
  leftBehind ((orderOf a).take (min n (a.commits - a.wrongDigest)))

/-- The byte behind the message when the suffix starts. -/
def finalMark (a : Args) : UInt8 := leftBehind ((orderOf a).take (a.commits - a.wrongDigest))

/-! ## The buffer -/

section Buffer

variable {E : Externs} {a : Args} {s : Series} {d : Digests} {n : Nat}
  {idx : Fin numberOfComputors} {reply : Bytes}

/-- The buffer before position `n`: it has its size, and the message and a byte are in it. -/
structure Marked (a : Args) (s : Series) (n : Nat) (reply : Bytes) : Prop where
  length : reply.length = maxReply + 3
  front : reply.take (s.message.length + 1) = s.message ++ [mark a n]

theorem Marked.message (h : Marked a s n reply) : reply.take s.message.length = s.message := by
  have hfront := congrArg (List.take s.message.length) h.front
  rw [List.take_take, Nat.min_eq_left (Nat.le_succ _), List.take_left' rfl] at hfront
  exact hfront

/-- No write before the loop leaves the buffer. -/
theorem marked_replyBuffer (hs : s.message.length ≤ maxReply) : Marked a s 0 (replyBuffer s) where
  length := by
    have hzero : (List.replicate (maxReply + 3) (0 : UInt8)).length = maxReply + 3 :=
      List.length_replicate
    have hmessage : (writeAt (List.replicate (maxReply + 3) 0) 0 s.message).length
        = maxReply + 3 := by
      rw [length_writeAt, hzero]
      rw [hzero]
      omega
    rw [replyBuffer, length_writeAt, hmessage]
    rw [hmessage]
    show s.message.length + 1 ≤ maxReply + 3
    omega
  front := take_replyBuffer s

/-- The byte behind the message after a right commit is the low byte of its computor. -/
theorem mark_succ_right (hn : n < a.commits - a.wrongDigest) (hidx : (orderOf a)[n]? = some idx) :
    mark a (n + 1) = UInt8.ofNat idx := by
  rw [mark, leftBehind, Nat.min_eq_left hn, List.take_add_one, hidx]
  simp only [Option.toList_some, List.getLast?_append, List.getLast?_singleton, Option.some_or]

/-- A wrong commit leaves it as it was. -/
theorem mark_succ_wrong (hn : a.commits - a.wrongDigest ≤ n) : mark a (n + 1) = mark a n := by
  rw [mark, mark, Nat.min_eq_right hn, Nat.min_eq_right (Nat.le_succ_of_le hn)]

/-- Without a right commit the `x` stays. -/
theorem finalMark_of_all_wrong (h : a.commits - a.wrongDigest = 0) : finalMark a = 0x78 := by
  rw [finalMark, h, List.take_zero]
  rfl

theorem finalMark_of_right {k : Nat} (h : a.commits - a.wrongDigest = k + 1)
    (hidx : (orderOf a)[k]? = some idx) : finalMark a = UInt8.ofNat idx := by
  have hmark := mark_succ_right (by rw [h]; exact Nat.lt_succ_self k) hidx
  rwa [mark, ← h, Nat.min_self] at hmark

/-- The numbers of right commits that leave an `x`: none, and those that end with a computor
whose low byte is an `x`. -/
def markedCounts (shuffle : Bool) : List Nat :=
  if shuffle then [0, 498, 501, 527] else [0, 121, 377, 633]

theorem markedCounts_eq (shuffle : Bool) :
    markedCounts shuffle = 0 :: [120, 376, 632].map fun idx => placeOf shuffle idx + 1 := by
  cases shuffle <;> decide +kernel

theorem ofNat_eq_x_iff (idx : Fin numberOfComputors) :
    UInt8.ofNat idx = 0x78 ↔ (idx : Nat) ∈ [120, 376, 632] := by
  have hlt : (idx : Nat) < 676 := idx.isLt
  rw [← UInt8.toNat_inj, UInt8.toNat_ofNat']
  simp only [List.mem_cons, List.not_mem_nil, or_false]
  show (idx : Nat) % 2 ^ 8 = 120 ↔ _
  omega

/-- **The byte behind the message when the suffix starts** is an `x` after four numbers of
right commits only. -/
theorem finalMark_eq_x_iff (a : Args) :
    finalMark a = 0x78 ↔ a.commits - a.wrongDigest ∈ markedCounts a.shuffle := by
  rw [markedCounts_eq, List.mem_cons]
  cases h : a.commits - a.wrongDigest with
  | zero => exact ⟨fun _ => Or.inl rfl, fun _ => finalMark_of_all_wrong h⟩
  | succ k =>
    have hk : k < (orderOf a).length := by
      rw [length_orderOf]
      omega
    have hidx := List.getElem?_eq_getElem hk
    have hplace : k = placeOf a.shuffle (orderOf a)[k] := by
      rw [← getElem?_commitOrder, ← hidx, orderOf, List.getElem?_take_of_lt]
      exact length_orderOf a ▸ hk
    rw [finalMark_of_right h hidx, ofNat_eq_x_iff, List.mem_map]
    constructor
    · exact fun hmem => Or.inr ⟨_, hmem, by rw [← hplace]⟩
    · rintro (hzero | ⟨c, hc, hck⟩)
      · exact absurd hzero (Nat.succ_ne_zero k)
      · -- one computor is at that place
        have hall : ∀ c ∈ [120, 376, 632], c < numberOfComputors := by decide
        have hcomputor := getElem?_commitOrder.mpr hplace
        have hplaced : k = placeOf a.shuffle (⟨c, hall c hc⟩ : Fin numberOfComputors) :=
          (Nat.succ.inj hck).symm
        rw [getElem?_commitOrder.mpr hplaced] at hcomputor
        rwa [← Option.some.inj hcomputor]

theorem ofU16_eq (idx : Fin numberOfComputors) :
    ofU16 (UInt16.ofNat idx) = [UInt8.ofNat idx, UInt8.ofNat (idx / 256)] := by
  have hlt : (idx : Nat) < 676 := idx.isLt
  have hnat : (UInt16.ofNat idx).toNat = idx := by
    rw [UInt16.toNat_ofNat']
    omega
  rw [ofU16, hnat]
  rfl

/-- **One turn**: the item has the byte that was behind the message, and no write leaves the
buffer. -/
theorem marked_commitItem (hs : s.message.length ≤ maxReply) (hidx : (orderOf a)[n]? = some idx)
    (h : Marked a s n reply) :
    (commitItem E a s (digestsOf E s) n idx reply).1 = itemWith E a s (mark a n) n idx ∧
      Marked a s (n + 1) (commitItem E a s (digestsOf E s) n idx reply).2 := by
  have hlen := h.length
  by_cases hn : a.commits - a.wrongDigest ≤ n
  · -- the index goes behind the byte, which stays
    have hfront : (s.message ++ [mark a n]).length = s.message.length + 1 := by
      rw [List.length_append, List.length_singleton]
    have hhashed := take_writeAt (ofU16 (UInt16.ofNat idx)) h.front hfront
    rw [length_ofU16] at hhashed
    simp only [commitItem, itemWith, hn, decide_true, if_true, hhashed]
    refine ⟨rfl, ?_, ?_⟩
    · rw [length_writeAt, hlen]
      rw [hlen, length_ofU16]
      omega
    · rw [mark_succ_wrong hn]
      exact take_writeAt_le _ h.front hfront (Nat.le_refl _)
  · -- the index goes over the byte
    have hhashed := take_writeAt (ofU16 (UInt16.ofNat idx)) h.message rfl
    rw [length_ofU16] at hhashed
    simp only [commitItem, itemWith, hn, decide_false, Bool.false_eq_true, if_false, hhashed]
    refine ⟨rfl, ?_, ?_⟩
    · rw [length_writeAt, hlen]
      rw [hlen, length_ofU16]
      omega
    · rw [mark_succ_right (Nat.not_le.mp hn) hidx]
      have hbyte := congrArg (List.take (s.message.length + 1)) hhashed
      rw [List.take_take, Nat.min_eq_left (Nat.le_succ _), ofU16_eq, ← List.singleton_append,
        ← List.append_assoc] at hbyte
      rw [ofU16_eq]
      exact hbyte.trans (List.take_left' (by rw [List.length_append, List.length_singleton]))

/-- The buffer before each position. -/
def replyAt (E : Externs) (a : Args) (s : Series) : Nat → Bytes
  | 0 => replyBuffer s
  | n + 1 =>
    match (orderOf a)[n]? with
    | none => replyAt E a s n
    | some idx => (commitItem E a s (digestsOf E s) n idx (replyAt E a s n)).2

/-- **The buffer of a run**, by induction on the position. -/
theorem marked_replyAt (hs : s.message.length ≤ maxReply) (hn : n ≤ a.commits) :
    Marked a s n (replyAt E a s n) := by
  induction n with
  | zero => exact marked_replyBuffer hs
  | succ n ih =>
    have hlt : n < (orderOf a).length := by
      rw [length_orderOf]
      exact hn
    have hidx : (orderOf a)[n]? = some (orderOf a)[n] := List.getElem?_eq_getElem hlt
    rw [replyAt, hidx]
    exact (marked_commitItem hs hidx (ih (Nat.le_of_succ_le hn))).2

end Buffer

/-! ## The commits -/

section Commits

variable {E : Externs} {a : Args} {s : Series} {n : Nat} {idx : Fin numberOfComputors}
  {item tx : Bytes} {txs : List Bytes}

/-- The input of a transaction is this item. -/
def CommitInput (tx item : Bytes) : Prop := ∃ t, parseTx tx = .ok (some t) ∧ t.input = item

/-- A bad signature does not change the input. -/
theorem commitInput_of_commitTxAt (hlen : item.length = commitItemSize)
    (h : commitTxAt E a s n idx item = .ok tx) : CommitInput tx item := by
  have hbuilt : ∃ k : Key, tx = buildTx E k 0 s.commitTick 6 item := by
    unfold commitTxAt at h
    dsimp only at h
    split at h
    · cases h
      refine ⟨(s.comp.get idx).inverted, ?_⟩
      rw [← invertByte_buildTx, hlen]
      rfl
    · obtain ⟨_, -, h⟩ := Rust.bind_eq_ok.mp h
      cases h
      exact ⟨s.comp.get idx, rfl⟩
  obtain ⟨k, rfl⟩ := hbuilt
  refine ⟨_, parseTx_buildTx E k 0 s.commitTick 6 ?_, rfl⟩
  rw [hlen]
  decide

/-- The loop writes one transaction for each position, from the buffer before it. -/
theorem commitLoop_replyAt {m : Nat} (hm : (orderOf a).length = n + m)
    (h : commitLoop E a s (digestsOf E s) n ((orderOf a).drop n) (replyAt E a s n) = .ok txs) :
    txs.length = m ∧ ∀ k tx idx, txs[k]? = some tx → (orderOf a)[n + k]? = some idx →
      commitTxAt E a s (n + k) idx
        (commitItem E a s (digestsOf E s) (n + k) idx (replyAt E a s (n + k))).1 = .ok tx := by
  induction m generalizing n txs with
  | zero =>
    have hend : (orderOf a).length ≤ n := by omega
    rw [List.drop_of_length_le hend, commitLoop] at h
    cases h
    exact ⟨rfl, fun k tx idx htx => by cases htx⟩
  | succ m ih =>
    have hlt : n < (orderOf a).length := by omega
    have hidx : (orderOf a)[n]? = some (orderOf a)[n] := List.getElem?_eq_getElem hlt
    rcases hitem : commitItem E a s (digestsOf E s) n (orderOf a)[n] (replyAt E a s n)
      with ⟨item, reply⟩
    -- the buffer that this commit leaves is the one of the next turn
    have hreply : replyAt E a s (n + 1) = reply := by
      rw [replyAt, hidx]
      exact congrArg Prod.snd hitem
    rw [List.drop_eq_getElem_cons hlt, commitLoop, hitem, ← hreply] at h
    obtain ⟨tx, htx, h⟩ := Rust.bind_eq_ok.mp h
    obtain ⟨rest, hrest, h⟩ := Rust.bind_eq_ok.mp h
    cases h
    obtain ⟨hlen, htxs⟩ := ih (by omega) hrest
    refine ⟨congrArg (· + 1) hlen, fun k tx' idx hk hidx' => ?_⟩
    cases k with
    | zero =>
      cases hk
      rw [Nat.add_zero, hidx] at hidx'
      cases hidx'
      rw [Nat.add_zero, hitem]
      exact htx
    | succ k =>
      rw [Nat.add_succ, ← Nat.succ_add] at hidx' ⊢
      exact htxs k tx' idx hk hidx'

theorem CommitInput.unique {item' : Bytes} (h : CommitInput tx item) (h' : CommitInput tx item') :
    item = item' := by
  obtain ⟨t, hparse, rfl⟩ := h
  obtain ⟨t', hparse', rfl⟩ := h'
  rw [hparse] at hparse'
  cases hparse'
  rfl

theorem CommitInput.length (h : CommitInput tx item) (hlen : item.length = commitItemSize) :
    tx.length = 216 := by
  obtain ⟨t, hparse, rfl⟩ := h
  obtain ⟨dest, hlayout⟩ := parseTx_eq_some_iff.mp hparse
  rw [hlayout.length_raw, hlen]
  rfl

theorem length_replyItem (reply : Bytes) : (replyItem E a s idx reply).length = commitItemSize := by
  simp only [replyItem, List.length_append, length_ofU64, ByteVec.length_val]

theorem length_itemWith (b : UInt8) : (itemWith E a s b n idx).length = commitItemSize := by
  unfold itemWith
  split
  · simp only [List.length_append, length_ofU64, ByteVec.length_val]
  · exact length_replyItem _

/-- The byte matters where a commit is in the suffix, and only to the knowledge proof. -/
theorem itemWith_eq_intended_iff (b : UInt8) : itemWith E a s b n idx = intendedItem E a s n idx ↔
    (a.commits - a.wrongDigest ≤ n → E.qubicK12 (s.message ++ [b] ++ ofU16 (UInt16.ofNat idx))
      = E.qubicK12 (s.message ++ ascii "x" ++ ofU16 (UInt16.ofNat idx))) := by
  by_cases hn : a.commits - a.wrongDigest ≤ n
  · rw [itemWith, intendedItem, if_pos hn, if_pos hn, replyItem,
      List.append_right_inj, ← Subtype.ext_iff]
    exact ⟨fun h _ => h, fun h => h hn⟩
  · rw [itemWith, intendedItem, if_neg hn, if_neg hn]
    exact ⟨fun _ h => absurd h hn, fun _ => rfl⟩

end Commits

section Runs

variable {E : Externs} {u : Setup} {out : Output}

/-- **The items of a run**: those before the suffix are as intended, and in the suffix the
knowledge proof has the byte that the last right commit left. -/
theorem commitTxs_of_generate (hs : u.series.message.length ≤ maxReply)
    (h : generate E u = .ok out) :
    ∃ txs, out = outputOf E u (E.qubicK12 u.series.message) txs ∧ txs.length = u.args.commits ∧
      ∀ n tx idx, txs[n]? = some tx → (orderOf u.args)[n]? = some idx →
        CommitInput tx (itemWith E u.args u.series (finalMark u.args) n idx) := by
  rw [generate_eq] at h
  obtain ⟨_, -, h⟩ := Rust.bind_eq_ok.mp h
  obtain ⟨_, -, h⟩ := Rust.bind_eq_ok.mp h
  obtain ⟨txs, hloop, h⟩ := Rust.bind_eq_ok.mp h
  obtain ⟨_, -, h⟩ := Rust.bind_eq_ok.mp h
  cases h
  obtain ⟨hlen, htxs⟩ := commitLoop_replyAt (n := 0) (m := u.args.commits)
    (by rw [length_orderOf, Nat.zero_add]) hloop
  refine ⟨txs, rfl, hlen, fun n tx idx htx hidx => ?_⟩
  have hn : n < u.args.commits := by
    rw [← hlen]
    exact (List.getElem?_eq_some_iff.mp htx).1
  have hmarked := marked_replyAt (E := E) hs (Nat.le_of_lt hn)
  have hcommit := htxs n tx idx htx (by rw [Nat.zero_add]; exact hidx)
  rw [Nat.zero_add, (marked_commitItem hs hidx hmarked).1] at hcommit
  have hitem : itemWith E u.args u.series (mark u.args n) n idx
      = itemWith E u.args u.series (finalMark u.args) n idx := by
    by_cases hwrong : u.args.commits - u.args.wrongDigest ≤ n
    · rw [mark, Nat.min_eq_right hwrong, finalMark]
    · rw [itemWith, itemWith, if_neg hwrong, if_neg hwrong]
  rw [hitem] at hcommit
  exact commitInput_of_commitTxAt (length_itemWith _) hcommit

/-- Commits with one item each have one length. -/
theorem length_of_commitInput {a : Args} {txs : List Bytes}
    {item : Nat → Fin numberOfComputors → Bytes}
    (hlen : txs.length = a.commits) (hitem : ∀ n idx, (item n idx).length = commitItemSize)
    (h : ∀ n tx idx, txs[n]? = some tx → (orderOf a)[n]? = some idx → CommitInput tx (item n idx)) :
    ∀ tx ∈ txs, tx.length < 2 ^ 32 := by
  intro tx htx
  obtain ⟨n, hn, rfl⟩ := List.mem_iff_getElem.mp htx
  have hidx : n < (orderOf a).length := by
    rw [length_orderOf, ← hlen]
    exact hn
  rw [(h n _ _ (List.getElem?_eq_getElem hn) (List.getElem?_eq_getElem hidx)).length (hitem _ _)]
  decide

/-- A file has one list of commits. -/
theorem txs_of_outputOf {d : ByteVec 32} {txs txs' : List Bytes} (hlen : txs.length = txs'.length)
    (h32 : ∀ tx ∈ txs, tx.length < 2 ^ 32) (h32' : ∀ tx ∈ txs', tx.length < 2 ^ 32)
    (h : outputOf E u d txs = outputOf E u d txs') : txs = txs' := by
  have hfile := congrArg Output.file h
  unfold outputOf at hfile
  dsimp only at hfile
  rw [List.append_left_inj, List.append_right_inj] at hfile
  have hread := Records.readAll_encodeAll h32 []
  have hread' := Records.readAll_encodeAll h32' []
  rw [show Records.encodeAll txs = txs.flatMap fputBlob from rfl, hfile, hlen,
    show txs'.flatMap fputBlob = Records.encodeAll txs' from rfl, hread'] at hread
  exact (congrArg Prod.fst hread).symm

/-- The file has a commit at each position, and its item is the intended one. -/
def NegativeCommits (E : Externs) (u : Setup) (out : Output) : Prop :=
  ∃ txs, out = outputOf E u (E.qubicK12 u.series.message) txs ∧ txs.length = u.args.commits ∧
    ∀ n tx idx, txs[n]? = some tx → (orderOf u.args)[n]? = some idx →
      CommitInput tx (intendedItem E u.args u.series n idx)

/-- The byte that was left makes no difference to the knowledge proofs of the suffix. -/
def MarkIndifferent (E : Externs) (a : Args) (s : Series) : Prop :=
  ∀ n idx, a.commits - a.wrongDigest ≤ n → (orderOf a)[n]? = some idx →
    E.qubicK12 (s.message ++ [finalMark a] ++ ofU16 (UInt16.ofNat idx))
      = E.qubicK12 (s.message ++ ascii "x" ++ ofU16 (UInt16.ofNat idx))

/-- A collision of K: there is a suffix, the byte is no `x`, and yet every knowledge proof of
the suffix is that of the other string. -/
structure MarkCollision (E : Externs) (a : Args) (s : Series) : Prop where
  suffix : 0 < a.wrongDigest
  byte : finalMark a ≠ 0x78
  same : MarkIndifferent E a s

theorem negativeCommits_iff_indifferent (hs : u.series.message.length ≤ maxReply)
    (h : generate E u = .ok out) :
    NegativeCommits E u out ↔ MarkIndifferent E u.args u.series := by
  obtain ⟨txs, hout, hlen, hitems⟩ := commitTxs_of_generate hs h
  constructor
  · rintro ⟨txs', hout', hlen', hintended⟩ n idx hn hidx
    -- the file fixes the list
    obtain rfl : txs = txs' := txs_of_outputOf (hlen.trans hlen'.symm)
      (length_of_commitInput hlen (fun _ _ => length_itemWith _) hitems)
      (length_of_commitInput hlen' (fun _ _ => length_replyItem _) hintended)
      (hout.symm.trans hout')
    have hlt : n < txs.length := by
      rw [hlen, ← length_orderOf]
      exact (List.getElem?_eq_some_iff.mp hidx).1
    have htx := List.getElem?_eq_getElem hlt
    have hitem := (hitems n _ idx htx hidx).unique (hintended n _ idx htx hidx)
    exact (itemWith_eq_intended_iff _).mp hitem hn
  · intro hmark
    refine ⟨txs, hout, hlen, fun n tx idx htx hidx => ?_⟩
    rw [← (itemWith_eq_intended_iff _).mpr fun hn => hmark n idx hn hidx]
    exact hitems n tx idx htx hidx

/-- **When negative commits are well formed.** Every commit has one item, which in the suffix
has the byte that the last right commit left behind the message, and no write leaves the
reply buffer. So the items are the intended ones just when the suffix is empty, or starts after
a number of right commits that leaves an `x`, or K collides. -/
theorem negativeCommits_iff (E : Externs) (H : StockHost) (files : CString → Option Bytes)
    (argv : List CString) (u : Setup) (out : Output) (hsetup : setup H files argv = .ok u)
    (hmain : main E H files argv = .ok out) :
    (∃ txs, out = outputOf E u (E.qubicK12 u.series.message) txs ∧ txs.length = u.args.commits ∧
      ∀ n tx idx, txs[n]? = some tx → (orderOf u.args)[n]? = some idx →
        CommitInput tx (itemWith E u.args u.series (finalMark u.args) n idx)) ∧
    (∀ n, n ≤ u.args.commits → (replyAt E u.args u.series n).length = maxReply + 3) ∧
    (NegativeCommits E u out ↔ u.args.wrongDigest = 0 ∨
      u.args.commits - u.args.wrongDigest ∈ markedCounts u.args.shuffle ∨
        MarkCollision E u.args u.series) := by
  rw [main_of_setup hsetup] at hmain
  have hs : u.series.message.length ≤ maxReply := by
    rw [(setup_eq_ok hsetup).2.2.2]
    exact u.args.message_range.2
  refine ⟨commitTxs_of_generate hs hmain, fun n hn => (marked_replyAt hs hn).length, ?_⟩
  rw [negativeCommits_iff_indifferent hs hmain, ← finalMark_eq_x_iff]
  constructor
  · intro h
    by_cases hzero : u.args.wrongDigest = 0
    · exact Or.inl hzero
    by_cases hbyte : finalMark u.args = 0x78
    · exact Or.inr (Or.inl hbyte)
    · exact Or.inr (Or.inr ⟨Nat.pos_of_ne_zero hzero, hbyte, h⟩)
  · rintro (hzero | hbyte | h)
    · -- there is no suffix
      intro n idx hn hidx
      have hlt := (List.getElem?_eq_some_iff.mp hidx).1
      rw [length_orderOf] at hlt
      omega
    · intro n idx _ _
      rw [hbyte]
      rfl
    · exact h.same

end Runs

/-! ## A small run -/

/-- Hash values that spell the string. -/
def spellExterns : Externs :=
  { reportExterns with qubicK12 := fun b => ⟨ofNat 32 (toNat b), length_ofNat 32 _⟩ }

/-- Two commits, the second one wrong: `--commits 2 --bad-commits 0 --wrong-digest 1`. -/
def wrongArgv : List CString :=
  ((demoArgv.set 9 (arg "2")).set 11 (arg "0")).set 13 (arg "1")

def wrongArgs : Args :=
  { demoArgs with
    commits := 2, badCommits := 0, wrongDigest := 1
    commits_le := by decide
    suffixes_le := by decide }

def wrongSetup : Setup :=
  setupOf wrongArgs (vectorOf _ length_demoSeeds) (deriveSeed demoHost arbitratorSeed)
    (deriveSeed demoHost wrongArgs.userSeed)

theorem setup_wrong : setup demoHost demoFiles wrongArgv = .ok wrongSetup := by
  refine setup_of_seeds (o := wrongArgs.options) (by decide +kernel) (checkArgs_options wrongArgs)
    rfl ?_ length_demoSeeds rfl ?_ ?_
  · intro s hs
    obtain ⟨i, rfl⟩ := (List.mem_ofFn' _ _).mp hs
    exact isSeed_demoSeed i
  · exact isSeed_replicate rfl
  · exact isSeed_replicate rfl

theorem generate_wrong : ∃ out, generate spellExterns wrongSetup = .ok out := by
  have hsign : Signer spellExterns demoHost :=
    { accepts := fun _ _ => rfl, rejects := fun _ _ => rfl }
  have hfree : CollisionFree spellExterns wrongSetup :=
    { reply := by decide, keys := collisionFree_demo.keys }
  have h := honest_of_setup setup_wrong hsign hfree distinctSeeds_demo rfl
  obtain ⟨rest, hgenerate, -⟩ := exists_generate h rfl hfree.reply
    (rejects_of_setup setup_wrong hsign)
  exact ⟨_, hgenerate⟩

/-- The right commit is that of computor 0, and its index is behind the message when the
wrong commit is made. -/
theorem not_markIndifferent_wrong : ¬ MarkIndifferent spellExterns wrongArgs wrongSetup.series := by
  intro h
  have hidx : (orderOf wrongArgs)[1]? = some 1 := by decide +kernel
  have hmark : finalMark wrongArgs = 0 := by decide +kernel
  have hequal := h 1 1 (by decide) hidx
  rw [hmark] at hequal
  revert hequal
  decide

/-- The wrong commit is no commit to the message with an `x`. -/
theorem wrong_commit_malformed : ∃ out, setup demoHost demoFiles wrongArgv = .ok wrongSetup ∧
    main spellExterns demoHost demoFiles wrongArgv = .ok out ∧
      ¬ NegativeCommits spellExterns wrongSetup out := by
  obtain ⟨out, hgenerate⟩ := generate_wrong
  refine ⟨out, setup_wrong, (main_of_setup setup_wrong).trans hgenerate, ?_⟩
  rw [negativeCommits_iff_indifferent (by decide) hgenerate]
  exact not_markIndifferent_wrong

/-- The theorem at this run. -/
theorem negativeCommits_iff_wrong : ∃ out,
    main spellExterns demoHost demoFiles wrongArgv = .ok out ∧
    (NegativeCommits spellExterns wrongSetup out ↔ wrongArgs.wrongDigest = 0 ∨
      wrongArgs.commits - wrongArgs.wrongDigest ∈ markedCounts wrongArgs.shuffle ∨
        MarkCollision spellExterns wrongArgs wrongSetup.series) := by
  obtain ⟨out, hgenerate⟩ := generate_wrong
  have hmain := (main_of_setup setup_wrong).trans hgenerate
  exact ⟨out, hmain, (negativeCommits_iff spellExterns demoHost demoFiles wrongArgv wrongSetup out
    setup_wrong hmain).2.2⟩

end ZkQuorum.GenFixture
