import ZkQuorum.Guest.Main
import ZkQuorum.Lib.Records
import ZkQuorum.Lib.Tally

/-!
# What the guest counts

The commit loop walks a frame the host controls with 32-bit offsets, skips what
does not count, remembers the computors seen and stops early. This file takes it
apart into three facts:

- `checkCommit_spec`: on a record, `check_commit` does not panic and accepts
  exactly the valid commits (`ValidCommit`) of computors not seen yet;
- `readRecord_sound` / `readRecord_complete`: a step of the walk is a step of the
  grammar `len u32 | bytes` over the unbounded integers: a wrapped offset ends
  before it starts and is refused;
- `commitLoop_sound` / `commitLoop_complete`: the loop counts the distinct
  computors with a valid commit among the records it reads, up to the quorum.
-/

namespace ZkQuorum.Guest

open LittleEndian Rust

/-! ## Valid commits -/

/-- A transaction is a valid commit of computor `i` (SPEC step 4). -/
structure CommitFor (E : Externs) (pubkeys : Bytes) (queryId : ByteVec 8) (queryTick : UInt32)
    (reply raw : Bytes) (i : Nat) (tx : Tx) : Prop where
  parses : parseTx raw = .ok (some tx)
  inputType : tx.inputType = commitInputType
  destination : tx.destIsZero = true
  amount : tx.amount = 0
  tick : queryTick < tx.tick
  source : ListedAt pubkeys i tx.source
  /-- some 72-byte item is `queryId | K12(reply) | K12(reply | i)` -/
  item : ∃ k, (k + 1) * commitItemSize ≤ tx.input.length ∧
    (tx.input.drop (k * commitItemSize)).take commitItemSize
      = queryId.val ++ (E.qubicK12 reply).val
        ++ (E.qubicK12 (reply ++ ofU16 (UInt16.ofNat i))).val
  signature : SignatureValid E raw tx

/-- `raw` is a valid commit of computor `i`. -/
def ValidCommit (E : Externs) (pubkeys : Bytes) (queryId : ByteVec 8) (queryTick : UInt32)
    (reply raw : Bytes) (i : Nat) : Prop :=
  ∃ tx, CommitFor E pubkeys queryId queryTick reply raw i tx

section Check

variable {E : Externs} {pubkeys : Bytes} {sorted : List UInt16} {queryId : ByteVec 8}
  {queryTick : UInt32} {reply : Bytes}

theorem ValidCommit.lt {raw : Bytes} {i : Nat}
    (h : ValidCommit E pubkeys queryId queryTick reply raw i) : i < numberOfComputors := by
  obtain ⟨tx, h⟩ := h
  exact h.source.1

/-- A transaction is a valid commit of at most one computor. -/
theorem ValidCommit.unique (hd : DistinctKeys pubkeys) {raw : Bytes} {i j : Nat}
    (hi : ValidCommit E pubkeys queryId queryTick reply raw i)
    (hj : ValidCommit E pubkeys queryId queryTick reply raw j) : i = j := by
  obtain ⟨tx, hi⟩ := hi
  obtain ⟨tx', hj⟩ := hj
  have htx : tx = tx' := by
    have := hi.parses.symm.trans hj.parses
    simpa using this
  subst htx
  exact hd i j hi.source.1 hj.source.1 (hi.source.2.trans hj.source.2.symm)

/-- A 72-byte string matches iff it is the three parts one after the other. -/
theorem itemMatches_iff {d p : ByteVec 32} {item : Bytes} (hlen : item.length = commitItemSize) :
    itemMatches queryId d p item = true ↔ item = queryId.val ++ d.val ++ p.val := by
  have hq := queryId.property
  have hd := d.property
  have hp := p.property
  have hsplit : item = item.take 8 ++ (item.drop 8).take 32 ++ (item.drop 40).take 32 := by
    have h3 : (item.drop 40).take 32 = item.drop 40 := by
      apply List.take_of_length_le
      rw [List.length_drop, hlen]
      decide
    rw [h3, show item.drop 40 = (item.drop 8).drop 32 by rw [List.drop_drop], List.append_assoc,
      List.take_append_drop, List.take_append_drop]
  simp only [itemMatches, Bool.and_eq_true, beq_iff_eq]
  constructor
  · rintro ⟨⟨h1, h2⟩, h3⟩
    rw [hsplit, h1, h2, h3]
  · rintro rfl
    refine ⟨⟨?_, ?_⟩, ?_⟩
    · rw [List.append_assoc, List.take_left' hq]
    · rw [List.append_assoc, List.drop_left' hq, List.take_left' hd]
    · rw [List.drop_left' (by rw [List.length_append, hq, hd]), List.take_of_length_le (by omega)]

theorem any_itemMatches_iff {d p : ByteVec 32} {input : Bytes} :
    (chunksExact commitItemSize input).any (itemMatches queryId d p) = true ↔
      ∃ k, (k + 1) * commitItemSize ≤ input.length ∧
        (input.drop (k * commitItemSize)).take commitItemSize
          = queryId.val ++ d.val ++ p.val := by
  have hlen : ∀ k, (k + 1) * commitItemSize ≤ input.length →
      ((input.drop (k * commitItemSize)).take commitItemSize).length = commitItemSize := by
    intro k hk
    rw [Nat.add_mul, Nat.one_mul] at hk
    rw [List.length_take, List.length_drop]
    omega
  rw [List.any_eq_true]
  constructor
  · rintro ⟨item, hmem, hmatch⟩
    obtain ⟨k, hk, rfl⟩ := (mem_chunksExact (by decide)).mp hmem
    exact ⟨k, hk, (itemMatches_iff (hlen k hk)).mp hmatch⟩
  · rintro ⟨k, hk, heq⟩
    exact ⟨_, (mem_chunksExact (by decide)).mpr ⟨k, hk, rfl⟩,
      (itemMatches_iff (hlen k hk)).mpr heq⟩

/-- The fields a valid commit is judged by are those at their offsets. -/
theorem ValidCommit.fields {raw : Bytes} {i : Nat}
    (h : ValidCommit E pubkeys queryId queryTick reply raw i) :
    WellSized raw ∧ CommitFor E pubkeys queryId queryTick reply raw i (fieldsOf raw) := by
  obtain ⟨tx, h⟩ := h
  obtain ⟨hw, rfl⟩ := parseTx_eq_some.mp h.parses
  exact ⟨hw, h⟩

/-- A valid commit passes the cheap checks. -/
theorem CommitFor.head {raw : Bytes} {i : Nat} {tx : Tx}
    (h : CommitFor E pubkeys queryId queryTick reply raw i tx) :
    ¬ (tx.inputType ≠ commitInputType ∨ ¬ tx.destIsZero ∨ tx.amount ≠ 0 ∨ tx.tick ≤ queryTick) := by
  rintro (h1 | h2 | h3 | h4)
  · exact h1 h.inputType
  · exact h2 h.destination
  · exact h3 h.amount
  · exact UInt32.not_lt.mpr h4 h.tick

/-- **`check_commit` decides `ValidCommit`** for the computors not seen yet, and
does not panic. -/
theorem checkCommit_spec (E : Externs) (queryId : ByteVec 8) (queryTick : UInt32) (reply : Bytes)
    (hs : SortedIndex pubkeys sorted) (raw : Bytes) (seen : Vector Bool numberOfComputors) :
    Decides (checkCommit E raw pubkeys sorted seen queryId queryTick (k12 E reply) reply)
      (fun i => ValidCommit E pubkeys queryId queryTick reply raw i ∧ seen[i]? = some false) := by
  rw [checkCommit]
  by_cases hw : WellSized raw
  swap
  · rw [parseTx_eq, if_neg hw]
    exact Decides.refuse fun i h => hw h.1.fields.1
  have hparse : parseTx raw = .ok (some (fieldsOf raw)) := parseTx_eq_some.mpr ⟨hw, rfl⟩
  have hfields : ∀ {i}, ValidCommit E pubkeys queryId queryTick reply raw i →
      CommitFor E pubkeys queryId queryTick reply raw i (fieldsOf raw) := fun h => h.fields.2
  rw [hparse, ok_bind]
  simp only
  generalize fieldsOf raw = tx at hparse hfields
  -- each guard refutes one clause of `CommitFor`, in the order of the source
  refine Decides.guard (fun hhead i h => (hfields h.1).head hhead) fun hhead => ?_
  simp only [not_or, not_not, UInt32.not_le] at hhead
  obtain ⟨htype, hdest, hamount, htick⟩ := hhead
  cases hfind : findComputor pubkeys sorted tx.source with
  | none =>
    refine Decides.refuse fun i h => ?_
    rw [(findComputor_eq_some hs).mpr (hfields h.1).source] at hfind
    cases hfind
  | some idx =>
    have hlisted := (findComputor_eq_some hs).mp hfind
    have hidx : ∀ {i}, ValidCommit E pubkeys queryId queryTick reply raw i → i = idx := by
      intro i h
      have := (findComputor_eq_some hs).mpr (hfields h).source
      rw [hfind] at this
      exact (Option.some.inj this).symm
    have hlt : idx < numberOfComputors := hlisted.1
    have hget : arrayGet seen idx = .ok seen[idx] := dif_pos hlt
    have hseen? : seen[idx]? = some seen[idx] := Vector.getElem?_eq_getElem hlt
    simp only [hget, ok_bind]
    refine Decides.guard (fun hseen i ⟨h, hi⟩ => ?_) fun hseen => ?_
    · rw [hidx h, hseen?, hseen] at hi
      cases hi
    rw [Bool.not_eq_true] at hseen
    refine Decides.guard (fun hmatch i ⟨h, _⟩ => ?_) fun hmatch => ?_
    · obtain rfl := hidx h
      rw [Bool.not_eq_true'] at hmatch
      exact absurd (any_itemMatches_iff.mpr (hfields h).item) (Bool.eq_false_iff.mp hmatch)
    rw [Bool.not_eq_true', Bool.not_eq_false] at hmatch
    obtain ⟨b, hsig, hbiff⟩ := txSignatureValid_eq E hparse
    rw [hsig, ok_bind]
    refine Decides.guard (fun hb i ⟨h, _⟩ => ?_) fun hb => ?_
    · rw [Bool.not_eq_true'] at hb
      exact absurd (hbiff.mpr (hfields h).signature) (Bool.eq_false_iff.mp hb)
    rw [Bool.not_eq_true', Bool.not_eq_false] at hb
    refine Decides.accept ⟨⟨tx, ?_⟩, by rw [hseen?, hseen]⟩ fun i h => hidx h.1
    exact { parses := hparse, inputType := htype, destination := hdest, amount := hamount,
            tick := htick, source := hlisted, item := any_itemMatches_iff.mp hmatch,
            signature := hbiff.mp hb }

end Check

/-! ## The walk over the frame -/

/-- The panic of `main` for a record that is cut short. -/
def cutPanic : Records.Cut → Panic
  | .length => .message "commits frame: truncated length"
  | .body => .message "commits frame: truncated transaction"

theorem wrap_of_lt {n : Nat} (h : n < 2 ^ 32) : wrap n = n := Nat.mod_eq_of_lt h

/-- A range whose end wrapped is refused, so what `get` returns is a range over
the unbounded integers. -/
theorem get_wrap {s t : Bytes} {off len : Nat} (hoff : off < 2 ^ 32) (hlen : len < 2 ^ 32)
    (h : get s off (wrap (off + len)) = some t) :
    wrap (off + len) = off + len ∧ off + len ≤ s.length ∧ t = (s.drop off).take len := by
  rw [Rust.get] at h
  split at h
  · rename_i hrange
    have hw : wrap (off + len) = off + len := by
      unfold wrap at hrange ⊢
      omega
    rw [hw, Nat.add_sub_cancel_left] at h
    rw [hw] at hrange
    exact ⟨hw, hrange.2, (Option.some.inj h).symm⟩
  · cases h

/-- **A record the loop reads is a record of the grammar.** -/
theorem readRecord_sound {commits raw : Bytes} {off off' : Nat} (hoff : off < 2 ^ 32)
    (h : readRecord commits off = .ok (raw, off')) :
    Records.read (commits.drop off) = .ok (raw, commits.drop off') ∧ off' < 2 ^ 32 := by
  rw [readRecord, bind_eq_ok] at h
  obtain ⟨len, hlen, h⟩ := h
  simp only [bind_eq_ok] at h
  obtain ⟨body, hbody, h⟩ := h
  cases h
  obtain ⟨hw, hle, rfl⟩ := get_wrap hoff (by decide) (expect_eq_ok.mp hlen)
  rw [hw] at hbody ⊢
  have hn := UInt32.toNat_lt (toU32 ((commits.drop off).take 4))
  generalize hN : (toU32 ((commits.drop off).take 4)).toNat = n at hbody hn ⊢
  obtain ⟨hw', hle', rfl⟩ := get_wrap (hw ▸ Nat.mod_lt _ (by decide)) hn (expect_eq_ok.mp hbody)
  refine ⟨?_, Nat.mod_lt _ (by decide)⟩
  rw [Records.read, if_neg (by rw [List.length_drop]; omega)]
  simp only [hN]
  rw [if_neg (by rw [List.length_drop, List.length_drop]; omega), hw', List.drop_drop,
    List.drop_drop, Nat.add_assoc]

/-- On a frame shorter than `2 ^ 32` bytes the loop reads what the grammar has,
and panics where a record is cut short. -/
theorem readRecord_complete {commits : Bytes} {off : Nat} (hlen : commits.length < 2 ^ 32)
    (hoff : off ≤ commits.length) :
    match Records.read (commits.drop off) with
    | .ok (raw, rest) => ∃ off', readRecord commits off = .ok (raw, off') ∧
        off' ≤ commits.length ∧ rest = commits.drop off'
    | .error cut => readRecord commits off = .error (cutPanic cut) := by
  rw [Records.read, readRecord, List.length_drop]
  by_cases h4 : commits.length - off < 4
  · rw [if_pos h4, get_eq_none (by unfold wrap; omega)]
    rfl
  · rw [if_neg h4, wrap_of_lt (by omega), get_of_le (by omega) (by omega), expect_some, ok_bind,
      Nat.add_sub_cancel_left]
    simp only [List.drop_drop]
    have hlt := UInt32.toNat_lt (toU32 ((commits.drop off).take 4))
    generalize (toU32 ((commits.drop off).take 4)).toNat = n at hlt ⊢
    by_cases hn : commits.length - (off + 4) < n
    · rw [if_pos (by rw [List.length_drop]; exact hn),
        get_eq_none (by unfold wrap; omega)]
      rfl
    · rw [if_neg (by rw [List.length_drop]; exact hn), wrap_of_lt (by omega),
        get_of_le (by omega) (by omega), expect_some, ok_bind, Nat.add_sub_cancel_left]
      exact ⟨off + 4 + n, rfl, by omega, rfl⟩

/-! ## The count -/

/-- `check` judges records independently of each other: a record is a vote of at
most one computor, and is refused only if that computor was seen. -/
structure Judges (check : Bytes → Vector Bool numberOfComputors → Rust (Option Nat))
    (vote : Bytes → Option Nat) : Prop where
  judge : ∀ raw seen, ∃ r, check raw seen = .ok r ∧
    ∀ i, r = some i ↔ vote raw = some i ∧ seen[i]? = some false
  lt : ∀ raw i, vote raw = some i → i < numberOfComputors

/-- The flags mark exactly the computors of `l`. -/
def Marks (seen : Vector Bool numberOfComputors) (l : List Nat) : Prop :=
  ∀ i, i < numberOfComputors → seen[i]? = some (decide (i ∈ l))

theorem marks_init : Marks (Vector.replicate numberOfComputors false) [] := by
  intro i hi
  rw [Vector.getElem?_eq_getElem hi]
  simp

section Loop

variable {check : Bytes → Vector Bool numberOfComputors → Rust (Option Nat)}
  {vote : Bytes → Option Nat} {seen : Vector Bool numberOfComputors} {l : List Nat} {raw : Bytes}

/-- A record that is no vote, or a vote of a computor already counted, is
skipped. -/
theorem Judges.skip (hj : Judges check vote) (hm : Marks seen l)
    (h : ∀ i, vote raw = some i → i ∈ l) : check raw seen = .ok none := by
  obtain ⟨r, hr, hiff⟩ := hj.judge raw seen
  cases r with
  | none => exact hr
  | some i =>
    obtain ⟨hv, hs⟩ := (hiff i).mp rfl
    rw [hm i (hj.lt raw i hv), Option.some.injEq, decide_eq_false_iff_not] at hs
    exact absurd (h i hv) hs

/-- A vote of a new computor is counted, and the flags follow. -/
theorem Judges.count (hj : Judges check vote) (hm : Marks seen l) {i : Nat}
    (hv : vote raw = some i) (hi : i ∉ l) :
    check raw seen = .ok (some i) ∧
      ∃ seen', arraySet seen i true = .ok seen' ∧ Marks seen' (i :: l) := by
  have hlt := hj.lt raw i hv
  obtain ⟨r, hr, hiff⟩ := hj.judge raw seen
  have hs : seen[i]? = some false := by
    rw [hm i hlt, decide_eq_false hi]
  rw [(hiff i).mpr ⟨hv, hs⟩] at hr
  refine ⟨hr, seen.set i true hlt, dif_pos hlt, fun j hj' => ?_⟩
  rw [Vector.getElem?_set]
  by_cases hij : i = j
  · subst hij
    simp
  · rw [if_neg hij, hm j hj']
    simp [show ¬ j = i from fun h => hij h.symm]

/-- One iteration on a record that does not count. -/
theorem commitLoop_skip (hj : Judges check vote) (hm : Marks seen l) {commits : Bytes}
    {n off off' count : Nat} (hread : readRecord commits off = .ok (raw, off'))
    (h : ∀ i, vote raw = some i → i ∈ l) :
    commitLoop check commits (n + 1) off seen count
      = commitLoop check commits n off' seen count := by
  rw [commitLoop, hread, ok_bind]
  simp only [hj.skip hm h, ok_bind]

/-- One iteration on a vote of a new computor. -/
theorem commitLoop_count (hj : Judges check vote) (hm : Marks seen l) {commits : Bytes}
    {n off off' : Nat} (hread : readRecord commits off = .ok (raw, off')) {i : Nat}
    (hv : vote raw = some i) (hi : i ∉ l) :
    ∃ seen', Marks seen' (i :: l) ∧ commitLoop check commits (n + 1) off seen l.length
      = if quorum ≤ l.length + 1 then .ok (i :: l).length
        else commitLoop check commits n off' seen' (i :: l).length := by
  obtain ⟨hcheck, seen', hset, hm'⟩ := hj.count hm hv hi
  refine ⟨seen', hm', ?_⟩
  rw [commitLoop, hread, ok_bind]
  simp only [hcheck, ok_bind, hset]
  rfl

/-- **Soundness of the loop**, on any frame: the number it returns counts the
distinct voters among records the frame goes on with. -/
theorem commitLoop_sound (hj : Judges check vote) {commits : Bytes} {n off c : Nat}
    (hoff : off < 2 ^ 32) (hm : Marks seen l)
    (h : commitLoop check commits n off seen l.length = .ok c) :
    ∃ raws rest, commits.drop off = Records.encodeAll raws ++ rest ∧ raws.length ≤ n ∧
      c = (Tally.collect vote quorum raws l).length := by
  induction n generalizing off seen l with
  | zero =>
    rw [commitLoop] at h
    cases h
    exact ⟨[], commits.drop off, rfl, Nat.le_refl 0, rfl⟩
  | succ n ih =>
    have hread : ∃ raw off', readRecord commits off = .ok (raw, off') := by
      rw [commitLoop, bind_eq_ok] at h
      obtain ⟨⟨raw, off'⟩, hread, -⟩ := h
      exact ⟨raw, off', hread⟩
    obtain ⟨raw, off', hread⟩ := hread
    obtain ⟨hrec, hoff'⟩ := readRecord_sound hoff hread
    obtain ⟨hdrop, -⟩ := Records.encode_of_read hrec
    have hcons : ∀ {raws rest}, commits.drop off' = Records.encodeAll raws ++ rest →
        commits.drop off = Records.encodeAll (raw :: raws) ++ rest := by
      intro raws rest htail
      rw [hdrop, htail, Records.encodeAll_cons, List.append_assoc]
    rcases Tally.skip_or_new vote raw l with hskip | ⟨i, hv, hi⟩
    · rw [commitLoop_skip hj hm hread hskip] at h
      obtain ⟨raws, rest, htail, hle, hc⟩ := ih hoff' hm h
      refine ⟨raw :: raws, rest, hcons htail, Nat.succ_le_succ hle, ?_⟩
      rw [Tally.collect_cons_skip hskip]
      exact hc
    · obtain ⟨seen', hm', hloop⟩ := commitLoop_count (n := n) hj hm hread hv hi
      rw [hloop] at h
      by_cases hq : quorum ≤ l.length + 1
      · -- the loop stops here: what follows the record is not looked at
        rw [if_pos hq] at h
        cases h
        refine ⟨[raw], commits.drop off', hcons rfl, by simp, ?_⟩
        rw [Tally.collect_cons_new hv hi, if_pos hq]
      · rw [if_neg hq] at h
        obtain ⟨raws, rest, htail, hle, hc⟩ := ih hoff' hm' h
        refine ⟨raw :: raws, rest, hcons htail, Nat.succ_le_succ hle, ?_⟩
        rw [Tally.collect_cons_new hv hi, if_neg hq]
        exact hc

/-- **Completeness of the loop**: on a frame of `u32` length it counts the
distinct voters among the records of the frame, and panics only where it needs a
record that is cut short. -/
theorem commitLoop_complete (hj : Judges check vote) {commits : Bytes} {n off : Nat}
    (hlen : commits.length < 2 ^ 32) (hoff : off ≤ commits.length) (hm : Marks seen l)
    (hlt : l.length < quorum) :
    commitLoop check commits n off seen l.length =
      let counted := Tally.collect vote quorum (Records.readAll n (commits.drop off)).1 l
      if quorum ≤ counted.length then .ok counted.length
      else match (Records.readAll n (commits.drop off)).2 with
        | .ok _ => .ok counted.length
        | .error cut => .error (cutPanic cut) := by
  induction n generalizing off seen l with
  | zero =>
    simp only [commitLoop, Records.readAll, Tally.collect]
    rw [if_neg (by omega)]
  | succ n ih =>
    have hread := readRecord_complete hlen hoff
    cases hrec : Records.read (commits.drop off) with
    | error cut =>
      rw [hrec] at hread
      rw [Records.readAll_of_error hrec]
      show commitLoop check commits (n + 1) off seen l.length
        = if quorum ≤ l.length then .ok l.length else .error (cutPanic cut)
      rw [if_neg (Nat.not_le.mpr hlt), commitLoop, hread]
      rfl
    | ok p =>
      obtain ⟨raw, rest⟩ := p
      rw [hrec] at hread
      obtain ⟨off', hread, hoff', rfl⟩ := hread
      rw [Records.readAll_of_ok hrec]
      simp only
      -- `l` lists the computors marked in `seen`, before and after the record
      rcases Tally.skip_or_new vote raw l with hskip | ⟨i, hv, hi⟩
      · rw [commitLoop_skip hj hm hread hskip, Tally.collect_cons_skip hskip]
        exact ih hoff' hm hlt
      · obtain ⟨seen', hm', hloop⟩ := commitLoop_count (n := n) hj hm hread hv hi
        rw [hloop, Tally.collect_cons_new hv hi]
        by_cases hq : quorum ≤ l.length + 1
        · simp only [if_pos hq]
          rw [if_pos (by rw [List.length_cons]; exact hq)]
        · simp only [if_neg hq]
          exact ih hoff' hm' (by rw [List.length_cons]; omega)

end Loop

/-! ## `check_commit` as a judge -/

/-- The computor a record counts for when no computor was seen yet. -/
def vote (E : Externs) (pubkeys : Bytes) (sorted : List UInt16) (queryId : ByteVec 8)
    (queryTick : UInt32) (reply raw : Bytes) : Option Nat :=
  match checkCommit E raw pubkeys sorted (Vector.replicate _ false) queryId queryTick
    (k12 E reply) reply with
  | .ok r => r
  | .error _ => none

section Vote

variable {E : Externs} {pubkeys : Bytes} {sorted : List UInt16} {queryId : ByteVec 8}
  {queryTick : UInt32} {reply : Bytes}

/-- A record is a vote for `i` iff it is a valid commit of `i`. -/
theorem vote_eq_some (hs : SortedIndex pubkeys sorted) {raw : Bytes} {i : Nat} :
    vote E pubkeys sorted queryId queryTick reply raw = some i ↔
      ValidCommit E pubkeys queryId queryTick reply raw i := by
  obtain ⟨r, hr, hiff⟩ := checkCommit_spec E queryId queryTick reply hs raw
    (Vector.replicate _ false)
  have hvote : vote E pubkeys sorted queryId queryTick reply raw = r := by
    rw [vote, hr]
  rw [hvote, hiff i]
  refine ⟨And.left, fun h => ⟨h, ?_⟩⟩
  rw [marks_init i h.lt]
  rfl

theorem checkCommit_judges (E : Externs) (queryId : ByteVec 8) (queryTick : UInt32) (reply : Bytes)
    (hs : SortedIndex pubkeys sorted) :
    Judges
      (fun raw seen => checkCommit E raw pubkeys sorted seen queryId queryTick (k12 E reply) reply)
      (vote E pubkeys sorted queryId queryTick reply) where
  judge raw seen := by
    obtain ⟨r, hr, hiff⟩ := checkCommit_spec E queryId queryTick reply hs raw seen
    refine ⟨r, hr, fun i => ?_⟩
    rw [vote_eq_some hs]
    exact hiff i
  lt raw i h := ((vote_eq_some hs).mp h).lt

end Vote

end ZkQuorum.Guest
