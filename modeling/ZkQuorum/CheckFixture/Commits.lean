import ZkQuorum.CheckFixture.Checks
import ZkQuorum.Guest.Outcome
import ZkQuorum.Host.Format

/-!
# The commit loop of the fixture checker

The checker counts a commit by the same predicate as the guest (`ValidCommit`),
and its loop, which does not stop early, counts the distinct computors of the
whole list.
-/

namespace ZkQuorum.CheckFixture

open LittleEndian Guest Host

/-! ## One commit -/

/-- An item of the checker is an item of the guest. -/
theorem item_eq {queryId : UInt64} {d kp : ByteVec 32} {it : Bytes} (h : 72 ≤ it.length) :
    (getU64 it == queryId && (it.drop 8).take 32 == d.val && (it.drop 40).take 32 == kp.val)
      = itemMatches (bytesOfU64 queryId) d kp (it.take 72) := by
  have h8 : (it.take 8).length = 8 := List.length_take_of_le (by omega)
  have hid : (getU64 it == queryId) = (it.take 8 == ofU64 queryId) := by
    rw [getU64_eq (by omega), Bool.eq_iff_iff, beq_iff_eq, beq_iff_eq, ← ofU64_inj, ofU64_toU64 h8]
  have h1 : (it.take 72).take 8 = it.take 8 := List.take_take
  have h2 : ((it.take 72).drop 8).take 32 = (it.drop 8).take 32 := by
    rw [List.drop_take, List.take_take]
    rfl
  have h3 : ((it.take 72).drop 40).take 32 = (it.drop 40).take 32 := by
    rw [List.drop_take, List.take_take]
    rfl
  rw [itemMatches, h1, h2, h3, hid]
  rfl

theorem anyItem_iff {queryId : UInt64} {d kp : ByteVec 32} {input : Bytes} :
    anyItem queryId d kp input = true ↔
      ∃ k, (k + 1) * commitItemSize ≤ input.length ∧
        (input.drop (k * commitItemSize)).take commitItemSize
          = (bytesOfU64 queryId).val ++ d.val ++ kp.val := by
  rw [anyItem, List.any_eq_true]
  -- the bound of the loop counts the items that fit
  have hrange : ∀ k,
      k ∈ List.range (input.length / 72) ↔ (k + 1) * commitItemSize ≤ input.length := by
    intro k
    rw [List.mem_range, ← Nat.succ_le_iff, Nat.le_div_iff_mul_le (by decide)]
  have hitem : ∀ k, (k + 1) * commitItemSize ≤ input.length →
      72 ≤ (input.drop (72 * k)).length := by
    intro k hk
    rw [List.length_drop]
    simp only [commitItemSize] at hk
    omega
  have hlen : ∀ k, (k + 1) * commitItemSize ≤ input.length →
      ((input.drop (72 * k)).take 72).length = commitItemSize := fun k hk =>
    List.length_take_of_le (hitem k hk)
  constructor
  · rintro ⟨k, hk, hmatch⟩
    have hk' := (hrange k).mp hk
    simp only [item_eq (hitem k hk')] at hmatch
    refine ⟨k, hk', ?_⟩
    rw [Nat.mul_comm k]
    exact (itemMatches_iff (hlen k hk')).mp hmatch
  · rintro ⟨k, hk, heq⟩
    refine ⟨k, (hrange k).mpr hk, ?_⟩
    simp only [item_eq (hitem k hk)]
    rw [Nat.mul_comm k] at heq
    exact (itemMatches_iff (hlen k hk)).mpr heq

section Commit

variable {E : Externs} {packet : Bytes} {queryId : UInt64} {queryTick : UInt32} {reply : Bytes}

/-- **The checker counts a commit for a computor iff it is a valid commit of a
computor not seen yet.** -/
theorem commitIndex_eq_some (hd : DistinctKeys (pubkeysOf packet))
    {seen : Vector Bool numberOfComputors} {raw : Bytes} {i : Fin numberOfComputors} :
    commitIndex E packet queryId queryTick reply seen raw = some i ↔
      ValidCommit E (pubkeysOf packet) (bytesOfU64 queryId) queryTick reply raw i ∧
        seen.get i = false := by
  unfold commitIndex
  -- the tests of the source, in its order, are the clauses of `CommitFor`
  constructor
  · intro h
    split at h
    · cases h
    rename_i hhead
    simp only [Bool.or_eq_true, Bool.not_eq_true', decide_eq_true_eq, not_or,
      Bool.not_eq_false, UInt32.not_le] at hhead
    obtain ⟨tx, hparse, htype, hdest, hamount, hsig⟩ := txOk_iff.mp hhead.1
    split at h
    · cases h
    rename_i idx hidx
    split at h
    · cases h
    rename_i hseen
    simp only at h
    split at h
    · rename_i hitem
      cases h
      refine ⟨⟨tx, { parses := hparse, inputType := htype, destination := hdest,
                     amount := hamount rfl, tick := getU32_tick hparse ▸ hhead.2,
                     source := source_read hparse ▸ (computorIndex_eq_some hd).mp hidx,
                     item := anyItem_iff.mp (input_read hparse ▸ hitem), signature := hsig }⟩, ?_⟩
      exact Bool.not_eq_true _ ▸ hseen
    · cases h
  · rintro ⟨⟨tx, h⟩, hseen⟩
    have hok : txOk E raw 6 0 true = true :=
      txOk_iff.mpr ⟨tx, h.parses, h.inputType, h.destination, fun _ => h.amount, h.signature⟩
    have htick : ¬ getU32 (raw.drop 72) ≤ queryTick := by
      rw [getU32_tick h.parses, UInt32.not_le]
      exact h.tick
    have hidx : computorIndex packet raw = some i :=
      (computorIndex_eq_some hd).mpr (source_read h.parses ▸ h.source)
    have hitem := anyItem_iff.mpr h.item
    rw [← input_read h.parses] at hitem
    simp only [hok, Bool.not_true, decide_eq_false htick, Bool.or_false, Bool.false_eq_true,
      if_false, hidx, hseen, hitem, if_true]

end Commit

/-! ## Reading -/

section Readers

variable {buf a b rest p : Bytes} {pos pos' n : Nat} {what : String}

theorem take_at (hmax : buf.length ≤ Rust.isizeMax) (h : At buf pos (a ++ rest)) (ha : a.length = n)
    (what : String) : take buf pos n what = .ok (a, pos + n) ∧ At buf (pos + n) rest := by
  have hle : pos + n ≤ buf.length := by
    have hlen := congrArg List.length h.drop
    rw [List.length_drop, List.length_append] at hlen
    have := h.le
    omega
  have hmod : (pos + n) % 2 ^ 64 = pos + n :=
    Nat.mod_eq_of_lt (by unfold Rust.isizeMax at hmax; omega)
  refine ⟨?_, hle, drop_add_of_drop h.drop ha⟩
  rw [take, hmod, if_neg (Nat.not_lt.mpr hle), h.drop, List.take_left' ha]

theorem take_sound (hmax : buf.length ≤ Rust.isizeMax) (hpos : pos ≤ buf.length) (hn : n < 2 ^ 63)
    (h : take buf pos n what = .ok (p, pos')) :
    At buf pos (p ++ buf.drop pos') ∧ p.length = n ∧ pos' ≤ buf.length := by
  have hmod : (pos + n) % 2 ^ 64 = pos + n :=
    Nat.mod_eq_of_lt (by unfold Rust.isizeMax at hmax; omega)
  rw [take, hmod] at h
  split at h
  · cases h
  · rename_i hle
    rw [Except.ok.injEq, Prod.mk.injEq] at h
    obtain ⟨rfl, rfl⟩ := h
    refine ⟨⟨hpos, ?_⟩, ?_, Nat.not_lt.mp hle⟩
    · rw [← List.drop_drop, List.take_append_drop]
    · rw [List.length_take, List.length_drop]
      omega

theorem blob_at (hmax : buf.length ≤ Rust.isizeMax) (hb : b.length < 2 ^ 32)
    (h : At buf pos (Host.blob b ++ rest)) (what : String) :
    ∃ pos', blob buf pos what = .ok (b, pos') ∧ At buf pos' rest := by
  have hlen : (getU32 (Records.lengthBytes b)).toNat = b.length := by
    rw [getU32_of_length (Records.length_lengthBytes b), Records.lengthBytes, toU32_ofU32,
      UInt32.toNat_ofNat', Nat.mod_eq_of_lt hb]
  rw [Host.blob, Records.encode, List.append_assoc] at h
  obtain ⟨hread, hat⟩ := take_at hmax h (Records.length_lengthBytes b) what
  obtain ⟨htake, hat'⟩ := take_at hmax hat hlen.symm what
  refine ⟨_, ?_, hat'⟩
  rw [blob, hread, Rust.ok_bind]
  exact htake

theorem blob_sound (hmax : buf.length ≤ Rust.isizeMax) (hpos : pos ≤ buf.length)
    (h : blob buf pos what = .ok (b, pos')) :
    b.length < 2 ^ 32 ∧ At buf pos (Host.blob b ++ buf.drop pos') ∧ pos' ≤ buf.length := by
  rw [blob, Rust.bind_eq_ok] at h
  obtain ⟨⟨p, pos1⟩, hread, htake⟩ := h
  obtain ⟨hat, hlen, hpos1⟩ := take_sound hmax hpos (by decide) hread
  have hn := (getU32 p).toNat_lt
  obtain ⟨hat', hlen', hpos'⟩ := take_sound hmax hpos1 (by omega) htake
  refine ⟨hlen' ▸ hn, ?_, hpos'⟩
  have hp : Records.lengthBytes b = p := by
    rw [Records.lengthBytes, hlen', UInt32.ofNat_toNat, getU32_of_length hlen, ofU32_toU32 hlen]
  rw [hat'.drop] at hat
  rw [Host.blob, Records.encode, hp, List.append_assoc]
  exact hat

end Readers

/-! ## The loop -/

section Loop

variable {index : Vector Bool numberOfComputors → Bytes → Option (Fin numberOfComputors)}
  {vote : Bytes → Option (Fin numberOfComputors)} {buf rest : Bytes}

/-- `index` counts a record for its voter, if that voter was not seen. -/
def Counts (index : Vector Bool numberOfComputors → Bytes → Option (Fin numberOfComputors))
    (vote : Bytes → Option (Fin numberOfComputors)) : Prop :=
  ∀ seen raw i, index seen raw = some i ↔ vote raw = some i ∧ seen.get i = false

/-- A quorum that is never reached: there are not as many computors. -/
abbrev never : Nat := numberOfComputors + 1

/-- **The loop counts the distinct voters** of the transactions it reads. -/
theorem commitLoop_at (hc : Counts index vote) (hmax : buf.length ≤ Rust.isizeMax)
    {txs : List Bytes} (htxs : ∀ tx ∈ txs, tx.length < 2 ^ 32) {pos : Nat}
    (h : At buf pos (txs.flatMap Host.blob ++ rest)) {seen : Vector Bool numberOfComputors}
    {l : List (Fin numberOfComputors)} (hl : l.Nodup) (hm : ∀ i, seen.get i = decide (i ∈ l)) :
    ∃ pos', commitLoop index buf txs.length pos seen l.length
        = .ok (pos', (Tally.collect vote never txs l).length) ∧ At buf pos' rest := by
  induction txs generalizing pos seen l with
  | nil => exact ⟨pos, rfl, h⟩
  | cons tx txs ih =>
    rw [List.flatMap_cons, List.append_assoc] at h
    obtain ⟨pos1, hread, hat⟩ := blob_at hmax (htxs tx List.mem_cons_self) h "commitTx"
    have htail : ∀ t ∈ txs, t.length < 2 ^ 32 := fun t ht => htxs t (List.mem_cons_of_mem tx ht)
    rw [List.length_cons, commitLoop, hread, Rust.ok_bind]
    -- `l` lists the computors marked in `seen`: the record is skipped, or its voter joins both
    rcases Tally.skip_or_new vote tx l with hskip | ⟨i, hv, hi⟩
    · have hnone : index seen tx = none := by
        cases hx : index seen tx with
        | none => rfl
        | some i =>
          obtain ⟨hv, hs⟩ := (hc seen tx i).mp hx
          rw [hm i, decide_eq_false_iff_not] at hs
          exact absurd (hskip i hv) hs
      rw [Tally.collect_cons_skip hskip]
      simp only [hnone]
      exact ih htail hat hl hm
    · have hsome : index seen tx = some i :=
        (hc seen tx i).mpr ⟨hv, by rw [hm i, decide_eq_false hi]⟩
      have hnodup : (i :: l).Nodup := List.nodup_cons.mpr ⟨hi, hl⟩
      have hle : (i :: l).length ≤ numberOfComputors := by
        have := hnodup.length_le_card
        rwa [Fintype.card_fin] at this
      have hstop : ¬ never ≤ l.length + 1 := Nat.not_le.mpr (Nat.lt_succ_of_le hle)
      rw [Tally.collect_cons_new hv hi, if_neg hstop]
      simp only [hsome]
      refine ih htail hat hnodup fun j => ?_
      show (seen.set i true)[j.val] = decide (j ∈ i :: l)
      rw [Vector.getElem_set]
      by_cases hij : i = j
      · subst hij
        simp
      · have hold : seen[j.val] = decide (j ∈ l) := hm j
        rw [if_neg fun hval => hij (Fin.ext hval), hold]
        simp [show ¬ j = i from fun hji => hij hji.symm]

/-- What the loop read is a list of records. -/
theorem commitLoop_sound (hmax : buf.length ≤ Rust.isizeMax) {n pos pos' counted counted' : Nat}
    (hpos : pos ≤ buf.length) {seen : Vector Bool numberOfComputors}
    (h : commitLoop index buf n pos seen counted = .ok (pos', counted')) :
    ∃ txs : List Bytes, txs.length = n ∧ (∀ tx ∈ txs, tx.length < 2 ^ 32) ∧
      At buf pos (txs.flatMap Host.blob ++ buf.drop pos') ∧ pos' ≤ buf.length := by
  induction n generalizing pos seen counted with
  | zero =>
    rw [commitLoop] at h
    cases h
    exact ⟨[], rfl, fun tx htx => (nomatch htx), ⟨hpos, rfl⟩, hpos⟩
  | succ n ih =>
    rw [commitLoop, Rust.bind_eq_ok] at h
    obtain ⟨⟨tx, pos1⟩, hread, h⟩ := h
    obtain ⟨hlt, hat, hpos1⟩ := blob_sound hmax hpos hread
    -- what was read does not depend on whether the record counted
    have htail : ∃ seen' counted'', commitLoop index buf n pos1 seen' counted''
        = .ok (pos', counted') := by
      simp only at h
      split at h
      · exact ⟨_, _, h⟩
      · exact ⟨_, _, h⟩
    obtain ⟨seen', counted'', htail⟩ := htail
    obtain ⟨txs, hlen, htxs, hat', hpos'⟩ := ih hpos1 htail
    refine ⟨tx :: txs, congrArg (· + 1) hlen, ?_, ?_, hpos'⟩
    · intro t ht
      rcases List.mem_cons.mp ht with rfl | ht
      · exact hlt
      · exact htxs t ht
    · rw [hat'.drop] at hat
      rw [List.flatMap_cons, List.append_assoc]
      exact hat

end Loop

end ZkQuorum.CheckFixture
