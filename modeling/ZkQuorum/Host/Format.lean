import ZkQuorum.Host.Fixture

/-!
# The fixture format (host/src/fixture.rs)

`parse` accepts exactly what `serialize` writes, and no accepted string is the
start of another.

`At bytes off rest` is the reader's invariant: the offset is inside the string
and `rest` is what it has not read. Each closure of `parse` gets two lemmas from
it: what it reads off the front (`_at`), and what the string looked like if it
returned `Ok` (`_sound`).
-/

namespace ZkQuorum.Host

open LittleEndian Rust Fallible

/-- A fixture `serialize` writes without truncating a length. -/
structure Fixture.WellFormed (fx : Fixture) : Prop where
  packet : fx.computorsPacket.length = Guest.packetSize
  queryTx : fx.queryTx.length < 2 ^ 32
  reply : fx.reply.length < 2 ^ 32
  count : fx.commitTxs.length < 2 ^ 32
  commitTxs : ∀ tx ∈ fx.commitTxs, tx.length < 2 ^ 32
  revealTx : fx.revealTx.length < 2 ^ 32

/-- A reader at `off` has `rest` left to read. -/
structure At (bytes : Bytes) (off : Nat) (rest : Bytes) : Prop where
  le : off ≤ bytes.length
  drop : bytes.drop off = rest

section Readers

variable {bytes a b rest : Bytes} {off off' n : Nat}

/-! ## `take` -/

theorem take_returns (bytes : Bytes) (off n : Nat) : Returns (take bytes off n) := by
  unfold take
  cases checkedAdd off n with
  | none => exact returns_throw _
  | some stop =>
    simp only
    cases get bytes off stop with
    | none => exact returns_throw _
    | some s => exact returns_pure _

theorem take_at (hmax : bytes.length ≤ isizeMax) (h : At bytes off (a ++ rest))
    (ha : a.length = n) : take bytes off n = pure (a, off + n) ∧ At bytes (off + n) rest := by
  have hdrop := h.drop
  have hle : off + n ≤ bytes.length := by
    have hlen := congrArg List.length hdrop
    rw [List.length_drop, List.length_append] at hlen
    have := h.le
    omega
  have hadd : checkedAdd off n = some (off + n) := if_pos (by unfold isizeMax at hmax; omega)
  refine ⟨?_, hle, drop_add_of_drop hdrop ha⟩
  unfold take
  simp only [hadd, get_of_le (Nat.le_add_right off n) hle, hdrop, Nat.add_sub_cancel_left,
    List.take_left' ha]

theorem take_sound (h : take bytes off n = pure (a, off')) :
    At bytes off (a ++ bytes.drop off') ∧ a.length = n ∧ off' ≤ bytes.length := by
  unfold take at h
  cases hadd : checkedAdd off n with
  | none =>
    rw [hadd] at h
    cases h
  | some stop =>
    -- `checked_add` gave the sum
    obtain rfl : off + n = stop := by
      unfold checkedAdd at hadd
      split at hadd
      · exact Option.some.inj hadd
      · cases hadd
    rw [hadd] at h
    simp only at h
    cases hget : get bytes off (off + n) with
    | none =>
      rw [hget] at h
      cases h
    | some s =>
      rw [hget] at h
      cases h
      unfold Rust.get at hget
      split at hget
      · rename_i hle
        rw [Nat.add_sub_cancel_left] at hget
        obtain rfl := Option.some.inj hget
        refine ⟨⟨by omega, ?_⟩, ?_, hle.2⟩
        · rw [← List.drop_drop, List.take_append_drop]
        · rw [List.length_take, List.length_drop]
          omega
      · cases hget

/-! ## `read_u32` -/

theorem readU32_returns (bytes : Bytes) (off : Nat) : Returns (readU32 bytes off) := by
  refine (take_returns bytes off 4).bind ?_
  rintro ⟨s, off'⟩ h
  obtain ⟨-, hlen, -⟩ := take_sound h
  simp only [toArray_of_length hlen]
  exact returns_pure _

theorem readU32_at (hmax : bytes.length ≤ isizeMax) {v : UInt32}
    (h : At bytes off (ofU32 v ++ rest)) :
    readU32 bytes off = pure (v.toNat, off + 4) ∧ At bytes (off + 4) rest := by
  obtain ⟨htake, hat⟩ := take_at hmax h (length_ofU32 v)
  refine ⟨?_, hat⟩
  rw [readU32, htake, pure_bind]
  simp only [toArray_of_length (length_ofU32 v)]
  show (pure ((toU32 (ofU32 v)).toNat, off + 4) : Fallible _) = _
  rw [toU32_ofU32]

theorem readU32_sound (h : readU32 bytes off = pure (n, off')) :
    ∃ v : UInt32, v.toNat = n ∧ At bytes off (ofU32 v ++ bytes.drop off') ∧
      off' ≤ bytes.length := by
  rw [readU32] at h
  obtain ⟨⟨s, off''⟩, htake, h⟩ := bind_eq_pure.mp h
  obtain ⟨hat, hlen, hle⟩ := take_sound htake
  simp only [toArray_of_length hlen] at h
  cases h
  refine ⟨toU32 s, rfl, ?_, hle⟩
  rw [ofU32_toU32 hlen]
  exact hat

/-! ## `read_blob` -/

theorem readBlob_returns (bytes : Bytes) (off : Nat) : Returns (readBlob bytes off) := by
  refine (readU32_returns bytes off).bind ?_
  rintro ⟨n, off'⟩ -
  exact take_returns bytes off' n

theorem readBlob_at (hmax : bytes.length ≤ isizeMax) (hb : b.length < 2 ^ 32)
    (h : At bytes off (blob b ++ rest)) :
    ∃ off', readBlob bytes off = pure (b, off') ∧ At bytes off' rest := by
  have hlen : (UInt32.ofNat b.length).toNat = b.length := by
    rw [UInt32.toNat_ofNat', Nat.mod_eq_of_lt hb]
  rw [blob, Records.encode, Records.lengthBytes, List.append_assoc] at h
  obtain ⟨hread, hat⟩ := readU32_at hmax h
  obtain ⟨htake, hat'⟩ := take_at hmax hat hlen.symm
  refine ⟨_, ?_, hat'⟩
  rw [readBlob, hread, pure_bind]
  exact htake

theorem readBlob_sound (h : readBlob bytes off = pure (b, off')) :
    b.length < 2 ^ 32 ∧ At bytes off (blob b ++ bytes.drop off') ∧ off' ≤ bytes.length := by
  rw [readBlob] at h
  obtain ⟨⟨n, off''⟩, hread, htake⟩ := bind_eq_pure.mp h
  obtain ⟨v, rfl, hat, -⟩ := readU32_sound hread
  obtain ⟨hat', hlen, hle⟩ := take_sound htake
  refine ⟨hlen ▸ v.toNat_lt, ?_, hle⟩
  rw [hat'.drop] at hat
  rw [blob, Records.encode, Records.lengthBytes, hlen, UInt32.ofNat_toNat, List.append_assoc]
  exact hat

/-! ## The commit list -/

theorem readBlobs_returns (bytes : Bytes) (n off : Nat) : Returns (readBlobs bytes n off) := by
  induction n generalizing off with
  | zero => exact returns_pure _
  | succ n ih =>
    refine (readBlob_returns bytes off).bind ?_
    rintro ⟨b, off'⟩ -
    refine (ih off').bind ?_
    rintro ⟨bs, off''⟩ -
    exact returns_pure _

theorem readBlobs_at (hmax : bytes.length ≤ isizeMax) {bs : List Bytes}
    (hbs : ∀ b ∈ bs, b.length < 2 ^ 32) (h : At bytes off (bs.flatMap blob ++ rest)) :
    ∃ off', readBlobs bytes bs.length off = pure (bs, off') ∧ At bytes off' rest := by
  induction bs generalizing off with
  | nil => exact ⟨off, rfl, h⟩
  | cons b bs ih =>
    rw [List.flatMap_cons, List.append_assoc] at h
    obtain ⟨off', hread, hat⟩ := readBlob_at hmax (hbs b List.mem_cons_self) h
    obtain ⟨off'', hreads, hat'⟩ := ih (fun c hc => hbs c (List.mem_cons_of_mem b hc)) hat
    refine ⟨off'', ?_, hat'⟩
    rw [List.length_cons, readBlobs, hread, pure_bind]
    simp only [hreads, pure_bind]

theorem readBlobs_sound {bs : List Bytes} (h : readBlobs bytes n off = pure (bs, off'))
    (hoff : off ≤ bytes.length) :
    bs.length = n ∧ (∀ b ∈ bs, b.length < 2 ^ 32) ∧
      At bytes off (bs.flatMap blob ++ bytes.drop off') ∧ off' ≤ bytes.length := by
  induction n generalizing off bs with
  | zero =>
    cases h
    exact ⟨rfl, fun b hb => (nomatch hb), ⟨hoff, rfl⟩, hoff⟩
  | succ n ih =>
    rw [readBlobs] at h
    obtain ⟨⟨b, off1⟩, hread, h⟩ := bind_eq_pure.mp h
    obtain ⟨⟨bs', off2⟩, hreads, h⟩ := bind_eq_pure.mp h
    cases h
    obtain ⟨hb, hat, hle⟩ := readBlob_sound hread
    obtain ⟨hlen, hbs, hat', hle'⟩ := ih hreads hle
    refine ⟨congrArg (· + 1) hlen, ?_, ?_, hle'⟩
    · intro c hc
      rcases List.mem_cons.mp hc with rfl | hc
      · exact hb
      · exact hbs c hc
    · rw [hat'.drop] at hat
      rw [List.flatMap_cons, List.append_assoc]
      exact hat

end Readers

/-! ## `parse` -/

theorem rejectTrailing_eq_pure {len off : Nat} {u : Unit} :
    rejectTrailing len off = pure u ↔ off = len := by
  unfold rejectTrailing
  by_cases h : off = len
  · rw [if_neg (not_not.mpr h)]
    exact ⟨fun _ => h, fun _ => rfl⟩
  · rw [if_pos h]
    refine ⟨fun hc => ?_, fun hc => absurd hc h⟩
    obtain ⟨rest, -, hc⟩ := bind_eq_pure.mp hc
    cases hc

/-- The subtraction in the error text does not overflow. -/
theorem rejectTrailing_returns {len off : Nat} (h : off ≤ len) :
    Returns (rejectTrailing len off) := by
  unfold rejectTrailing
  rw [sub_of_le h]
  by_cases hne : off ≠ len
  · rw [if_pos hne]
    exact returns_throw _
  · rw [if_neg hne]
    exact returns_pure ()

/-- The vector `parse` allocates for the commit list is no larger than a vector
can be. -/
theorem allocate_count {v : UInt32} : allocate vecSize v.toNat = .ok () := by
  have hv := v.toNat_lt
  refine allocate_of_le ?_
  unfold vecSize isizeMax
  omega

/-- **`parse` does not panic**: it ends with `Ok` or `Err` on every byte string. -/
theorem parse_returns (bytes : Buffer) : Returns (parse bytes) := by
  unfold parse
  refine (take_returns _ _ _).bind ?_
  rintro ⟨m, off⟩ -
  refine (returns_ensure _ _).bind fun _ _ => (take_returns _ _ _).bind ?_
  rintro ⟨packet, off⟩ -
  refine (take_returns _ _ _).bind ?_
  rintro ⟨s, off⟩ hs
  obtain ⟨-, hlen, -⟩ := take_sound hs
  simp only [toArray_of_length hlen]
  refine (returns_lift _).bind fun a _ => (readBlob_returns _ _).bind ?_
  rintro ⟨queryTx, off⟩ -
  refine (readBlob_returns _ _).bind ?_
  rintro ⟨reply, off⟩ -
  refine (readU32_returns _ _).bind ?_
  rintro ⟨n, off⟩ hn
  obtain ⟨v, rfl, -⟩ := readU32_sound hn
  simp only [allocate_count]
  refine (returns_ensure _ _).bind fun _ _ => (returns_lift _).bind fun _ _ =>
    (readBlobs_returns _ _ _).bind ?_
  rintro ⟨commitTxs, off⟩ -
  refine (readBlob_returns _ _).bind ?_
  rintro ⟨revealTx, off⟩ hreveal
  obtain ⟨-, -, hle⟩ := readBlob_sound hreveal
  exact (rejectTrailing_returns hle).bind fun _ _ => returns_pure _

/-- The bytes of a fixture, one field after the other. -/
theorem layout_eq (fx : Fixture) :
    layout fx = magic ++ (fx.computorsPacket ++ (ofU64 fx.queryId ++ (blob fx.queryTx
      ++ (blob fx.reply ++ (ofU32 (UInt32.ofNat fx.commitTxs.length)
        ++ (fx.commitTxs.flatMap blob ++ (blob fx.revealTx ++ []))))))) := by
  simp only [layout, List.append_assoc, List.append_nil]

theorem length_layout (fx : Fixture) :
    (layout fx).length = 8 + fx.computorsPacket.length + 8 + (4 + fx.queryTx.length)
      + (4 + fx.reply.length) + 4 + (fx.commitTxs.flatMap blob).length
      + (4 + fx.revealTx.length) := by
  simp only [layout, List.length_append, blob, Records.length_encode, length_ofU64, length_ofU32]
  rfl

/-- The guard on the commit count never rejects a string `serialize` wrote: each
of the `n` records takes 4 bytes for its length alone. -/
theorem count_le_layout (fx : Fixture) : fx.commitTxs.length ≤ (layout fx).length / 4 := by
  have hge := Records.length_encodeAll_ge fx.commitTxs
  have hle : (Records.encodeAll fx.commitTxs).length ≤ (layout fx).length := by
    rw [layout, List.length_append, List.length_append]
    exact Nat.le_trans (Nat.le_add_left _ _) (Nat.le_add_right _ _)
  omega

/-- **`parse` reads back what `serialize` wrote.** -/
theorem parse_layout {fx : Fixture} (hw : fx.WellFormed) {bytes : Buffer}
    (hbytes : bytes.val = layout fx) : parse bytes = pure fx := by
  have hmax := bytes.property
  have hcount : (UInt32.ofNat fx.commitTxs.length).toNat = fx.commitTxs.length := by
    rw [UInt32.toNat_ofNat', Nat.mod_eq_of_lt hw.count]
  -- `At` carries the offset from field to field
  have h0 : At bytes.val 0 _ := ⟨Nat.zero_le _, (List.drop_zero.trans hbytes).trans (layout_eq fx)⟩
  obtain ⟨hmagic, h1⟩ := take_at (n := 8) hmax h0 rfl
  obtain ⟨hpacket, h2⟩ := take_at hmax h1 hw.packet
  obtain ⟨hqid, h3⟩ := take_at hmax h2 (length_ofU64 fx.queryId)
  obtain ⟨off4, hquery, h4⟩ := readBlob_at hmax hw.queryTx h3
  obtain ⟨off5, hreply, h5⟩ := readBlob_at hmax hw.reply h4
  obtain ⟨hn, h6⟩ := readU32_at hmax h5
  obtain ⟨off7, hcommits, h7⟩ := readBlobs_at hmax hw.commitTxs h6
  obtain ⟨off8, hreveal, h8⟩ := readBlob_at hmax hw.revealTx h7
  have hend : off8 = bytes.val.length :=
    Nat.le_antisymm h8.le (List.drop_eq_nil_iff.mp h8.drop)
  -- a commit takes at least the four bytes of its length
  have hguard : decide (fx.commitTxs.length ≤ bytes.val.length / 4) = true := by
    rw [hbytes]
    exact decide_eq_true (count_le_layout fx)
  rw [hcount] at hn
  have halloc : allocate vecSize fx.commitTxs.length = .ok () := hcount ▸ allocate_count
  have hrest : rejectTrailing bytes.val.length off8 = pure () := rejectTrailing_eq_pure.mpr hend
  rw [parse, hmagic, pure_bind]
  simp only [beq_self_eq_true, ensure_true, pure_bind]
  rw [hpacket, pure_bind]
  simp only [hqid, pure_bind, toArray_of_length (length_ofU64 fx.queryId), lift_ok, hquery, hreply,
    hn, hguard, ensure_true, halloc, hcommits, hreveal, hrest, toU64_ofU64]

/-- **What `parse` accepts is what `serialize` writes.** -/
theorem parse_sound {bytes : Buffer} {fx : Fixture} (h : parse bytes = pure fx) :
    fx.WellFormed ∧ bytes.val = layout fx := by
  simp only [parse, bind_eq_pure, ensure_eq_pure, lift_eq_pure, rejectTrailing_eq_pure, pure_inj,
    exists_const, beq_iff_eq] at h
  obtain ⟨⟨m, off1⟩, hmagic, rfl, ⟨packet, off2⟩, hpacket, ⟨s, off3⟩, hs, queryId, hqid,
    ⟨queryTx, off4⟩, hquery, ⟨reply, off5⟩, hreply, ⟨n, off6⟩, hn, -, _, -,
    ⟨commitTxs, off7⟩, hcommits, ⟨revealTx, off8⟩, hreveal, rfl, rfl⟩ := h
  obtain ⟨h0, -, -⟩ := take_sound hmagic
  obtain ⟨h1, hpacketLen, -⟩ := take_sound hpacket
  obtain ⟨h2, hlen, -⟩ := take_sound hs
  obtain ⟨hqueryLt, h3, -⟩ := readBlob_sound hquery
  obtain ⟨hreplyLt, h4, -⟩ := readBlob_sound hreply
  obtain ⟨v, rfl, h5, hle6⟩ := readU32_sound hn
  obtain ⟨hcount, hcommitsLt, h6, -⟩ := readBlobs_sound hcommits hle6
  obtain ⟨hrevealLt, h7, -⟩ := readBlob_sound hreveal
  rw [toArray_of_length hlen] at hqid
  cases hqid
  refine ⟨{ packet := hpacketLen, queryTx := hqueryLt, reply := hreplyLt,
            count := hcount ▸ v.toNat_lt, commitTxs := hcommitsLt, revealTx := hrevealLt }, ?_⟩
  have hall := h0.drop
  rw [List.drop_zero, h1.drop, h2.drop, h3.drop, h4.drop, h5.drop, h6.drop, h7.drop,
    List.drop_length] at hall
  rw [layout_eq, hall]
  simp only [hcount, UInt32.ofNat_toNat, ofU64_toU64 hlen]

/-! ## The format is prefix-free -/

/-- Two strings that start with records start with the same record. -/
theorem blob_append_inj {b c s t : Bytes} (hb : b.length < 2 ^ 32) (hc : c.length < 2 ^ 32)
    (h : blob b ++ s = blob c ++ t) : b = c ∧ s = t := by
  have hleft : Records.read (blob b ++ s) = .ok (b, s) := Records.read_encode hb
  have hread := hleft.symm.trans ((congrArg Records.read h).trans (Records.read_encode hc))
  rw [Except.ok.injEq, Prod.mk.injEq] at hread
  exact hread

theorem blobs_append_inj {bs cs : List Bytes} {s t : Bytes} (hlen : bs.length = cs.length)
    (hbs : ∀ b ∈ bs, b.length < 2 ^ 32) (hcs : ∀ c ∈ cs, c.length < 2 ^ 32)
    (h : bs.flatMap blob ++ s = cs.flatMap blob ++ t) : bs = cs ∧ s = t := by
  have hread := (Records.readAll_encodeAll hbs s).symm.trans
    ((congrArg (Records.readAll bs.length) h).trans (hlen ▸ Records.readAll_encodeAll hcs t))
  rw [Prod.mk.injEq, Except.ok.injEq] at hread
  exact hread

/-- Two strings that start with well-formed fixtures start with the same one. -/
theorem layout_append_inj {fx fx' : Fixture} (hw : fx.WellFormed) (hw' : fx'.WellFormed)
    {s t : Bytes} (h : layout fx ++ s = layout fx' ++ t) : fx = fx' ∧ s = t := by
  obtain ⟨packet, queryId, queryTx, reply, commitTxs, revealTx⟩ := fx
  obtain ⟨packet', queryId', queryTx', reply', commitTxs', revealTx'⟩ := fx'
  simp only [layout, List.append_assoc] at h
  have hcount := hw.count
  have hcount' := hw'.count
  obtain ⟨rfl, h1⟩ := List.append_inj (List.append_cancel_left h)
    (hw.packet.trans hw'.packet.symm)
  obtain ⟨hqid, h2⟩ := List.append_inj h1 (by rw [length_ofU64, length_ofU64])
  obtain rfl := ofU64_inj.mp hqid
  obtain ⟨rfl, h3⟩ := blob_append_inj hw.queryTx hw'.queryTx h2
  obtain ⟨rfl, h4⟩ := blob_append_inj hw.reply hw'.reply h3
  obtain ⟨hn, h5⟩ := List.append_inj h4 (by rw [length_ofU32, length_ofU32])
  have hlen : commitTxs.length = commitTxs'.length := by
    have hn' := congrArg (fun b => (toU32 b).toNat) hn
    simp only [toU32_ofU32, UInt32.toNat_ofNat'] at hn'
    rwa [Nat.mod_eq_of_lt hcount, Nat.mod_eq_of_lt hcount'] at hn'
  obtain ⟨rfl, h6⟩ := blobs_append_inj hlen hw.commitTxs hw'.commitTxs h5
  obtain ⟨rfl, rfl⟩ := blob_append_inj hw.revealTx hw'.revealTx h6
  exact ⟨rfl, rfl⟩

/-! ## Exactness -/

/-- `serialize` returns the layout of a well-formed fixture, unless no vector can
hold it. -/
theorem serialize_eq {fx : Fixture} (hw : fx.WellFormed) : serialize fx = buffer (layout fx) := by
  rw [serialize, hw.packet, beq_self_eq_true, assert_true, ok_bind]

/-- **`ZKQFIX02` is an exact, prefix-free format.**

- a well-formed fixture that a vector can hold is serialized, and parses back;
- an accepted string is the serialization of the fixture it parses to;
- an accepted string is not a proper start of another;
- the guard on the commit count lets everything pass that `serialize` wrote;
- every string gives `Ok` or `Err`, never a panic. -/
theorem fixture_format :
    (∀ fx : Fixture, fx.WellFormed →
      (∃ bytes, serialize fx = .ok bytes ∧ parse bytes = pure fx) ∨
        (isizeMax < (layout fx).length ∧ serialize fx = panicWith "capacity overflow")) ∧
    (∀ (bytes : Buffer) (fx : Fixture), parse bytes = pure fx → serialize fx = .ok bytes) ∧
    (∀ (bytes bytes' : Buffer) (fx fx' : Fixture), parse bytes = pure fx →
      parse bytes' = pure fx' → bytes.val <+: bytes'.val → bytes = bytes') ∧
    (∀ (fx : Fixture) (bytes : Buffer), serialize fx = .ok bytes →
      fx.commitTxs.length ≤ bytes.val.length / 4) ∧
    (∀ bytes : Buffer, (∃ fx, parse bytes = pure fx) ∨ ∃ e, parse bytes = throw e) := by
  refine ⟨fun fx hw => ?_, fun bytes fx h => ?_, fun bytes bytes' fx fx' h h' hstart => ?_,
    fun fx bytes h => ?_, fun bytes => ?_⟩
  -- what is written is read back
  · rw [serialize_eq hw]
    by_cases hmax : (layout fx).length ≤ isizeMax
    · exact Or.inl ⟨_, buffer_of_le hmax, parse_layout hw rfl⟩
    · exact Or.inr ⟨Nat.not_le.mp hmax, buffer_of_lt (Nat.not_le.mp hmax)⟩
  -- what is read is written back
  · obtain ⟨hw, hbytes⟩ := parse_sound h
    rw [serialize_eq hw, ← hbytes]
    exact buffer_of_le bytes.property
  -- no file continues another
  · obtain ⟨hw, hbytes⟩ := parse_sound h
    obtain ⟨hw', hbytes'⟩ := parse_sound h'
    obtain ⟨t, ht⟩ := hstart
    rw [hbytes, hbytes', ← List.append_nil (layout fx')] at ht
    obtain ⟨rfl, -⟩ := layout_append_inj hw hw' ht
    exact Subtype.ext (hbytes.trans hbytes'.symm)
  -- the count that is written passes the guard of the reader
  · rw [serialize, bind_eq_ok] at h
    obtain ⟨_, -, hbuffer⟩ := h
    unfold buffer at hbuffer
    split at hbuffer
    · cases hbuffer
      exact count_le_layout fx
    · cases hbuffer
  -- no buffer makes the reader panic
  · obtain ⟨r, hr⟩ := parse_returns bytes
    cases r with
    | ok fx => exact Or.inl ⟨fx, hr⟩
    | error e => exact Or.inr ⟨e, hr⟩

end ZkQuorum.Host
