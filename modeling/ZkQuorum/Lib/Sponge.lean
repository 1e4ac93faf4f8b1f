import ZkQuorum.Lib.Bytes

/-!
# Byte sponges

A sponge over any state: a permutation, a rate and an operation that xors one
byte into the state. Absorption is described twice:

- `absorbBlocks` is the block sponge of the standards: the padded input is cut
  into rate-sized blocks, each is xored into the front of the state and the
  permutation is applied;
- `absorb` takes one byte at a time and keeps the position inside the block,
  as incremental implementations do.

**`absorb_pad`** is the bridge: absorbing a message byte by byte, then the domain
byte, the final bit and one permutation, is the block sponge on the padded
message.
-/

/-- A sponge over the states `σ`. The two laws say that a byte is xored in. -/
structure Sponge (σ : Type) where
  rate : Nat
  rate_pos : 0 < rate
  /-- `xorByte s i b` xors `b` into byte `i` of `s` -/
  xorByte : σ → Nat → UInt8 → σ
  permute : σ → σ
  xorByte_zero : ∀ s i, xorByte s i 0 = s
  xorByte_xorByte : ∀ s i a b, xorByte (xorByte s i a) i b = xorByte s i (a ^^^ b)

/-- The consecutive pieces of `n` bytes of a string; the last one may be shorter. -/
def chunks (n : Nat) (s : Bytes) : List Bytes :=
  if _h : n = 0 ∨ s = [] then []
  else s.take n :: chunks n (s.drop n)
termination_by s.length
decreasing_by
  have hs := List.length_pos_of_ne_nil (fun h => _h (Or.inr h))
  rw [List.length_drop]
  omega

theorem chunks_nil (n : Nat) : chunks n [] = [] := by
  rw [chunks, dif_pos (Or.inr rfl)]

theorem chunks_of_ne_nil {n : Nat} (hn : 0 < n) {s : Bytes} (hs : s ≠ []) :
    chunks n s = s.take n :: chunks n (s.drop n) := by
  rw [chunks, dif_neg]
  rintro (h | h)
  · omega
  · exact hs h

/-- The first piece of a string that is long enough for it. -/
theorem chunks_append {n : Nat} (hn : 0 < n) {a : Bytes} (ha : a.length = n) (s : Bytes) :
    chunks n (a ++ s) = a :: chunks n s := by
  have hne : a ++ s ≠ [] := List.ne_nil_of_length_pos (by rw [List.length_append]; omega)
  rw [chunks_of_ne_nil hn hne, List.take_left' ha, List.drop_left' ha]

/-- A short string is one piece. -/
theorem chunks_of_length_le {n : Nat} {s : Bytes} (hs : s ≠ []) (hlen : s.length ≤ n) :
    chunks n s = [s] := by
  have hpos := List.length_pos_of_ne_nil hs
  rw [chunks_of_ne_nil (by omega) hs, List.take_of_length_le hlen, List.drop_of_length_le hlen,
    chunks_nil]

/-- The pieces of a string of whole pieces. -/
theorem length_of_mem_chunks {n : Nat} {s c : Bytes} (h : n ∣ s.length) (hc : c ∈ chunks n s) :
    c.length = n := by
  induction s using chunks.induct n with
  | case1 s h0 =>
    rw [chunks, dif_pos h0] at hc
    exact absurd hc List.not_mem_nil
  | case2 s h0 ih =>
    have hpos : 0 < s.length := List.length_pos_of_ne_nil fun hs => h0 (Or.inr hs)
    have hle : n ≤ s.length := Nat.le_of_dvd hpos h
    rw [chunks, dif_neg h0] at hc
    rcases List.mem_cons.mp hc with rfl | hc
    · exact List.length_take_of_le hle
    · refine ih ?_ hc
      rw [List.length_drop]
      exact Nat.dvd_sub h (Nat.dvd_refl n)

namespace Sponge

variable {σ : Type} (S : Sponge σ)

/-- Bytes xored into the state from position `i` on. -/
def xorBytes (s : σ) (i : Nat) : Bytes → σ
  | [] => s
  | b :: bs => xorBytes (S.xorByte s i b) (i + 1) bs

/-- The last byte of a string with `b` xored into it. -/
def xorLast (b : UInt8) : Bytes → Bytes
  | [] => []
  | [x] => [x ^^^ b]
  | x :: y :: bs => x :: xorLast b (y :: bs)

/-- The padding: the domain byte, zero bytes up to the end of the block, and the
final bit in the last byte. -/
def pad (suffix : UInt8) (msg : Bytes) : Bytes :=
  xorLast 0x80 (msg ++ suffix :: List.replicate (S.rate - 1 - msg.length % S.rate) 0)

/-- The block sponge: each block is xored in and the permutation applied. -/
def absorbBlocks (s : σ) (input : Bytes) : σ :=
  (chunks S.rate input).foldl (fun s block => S.permute (S.xorBytes s 0 block)) s

/-! ## Byte at a time -/

/-- A sponge between two bytes: the state and the position in the block. -/
@[ext]
structure Absorbing where
  state : σ
  index : Nat
  index_lt : index < S.rate

/-- The sponge before its first byte. -/
def start (s : σ) : S.Absorbing := ⟨s, 0, S.rate_pos⟩

/-- One byte: xored in at the position, which moves on; a full block is permuted. -/
def absorbByte (st : S.Absorbing) (b : UInt8) : S.Absorbing :=
  if h : st.index + 1 = S.rate then
    ⟨S.permute (S.xorByte st.state st.index b), 0, S.rate_pos⟩
  else
    ⟨S.xorByte st.state st.index b, st.index + 1, by
      have := st.index_lt
      omega⟩

/-- The bytes of a string, one after the other. -/
def absorb (st : S.Absorbing) (data : Bytes) : S.Absorbing := data.foldl S.absorbByte st

/-- The end of a message: the domain byte, the final bit, one permutation. -/
def finish (st : S.Absorbing) (suffix : UInt8) : σ :=
  S.permute (S.xorByte (S.xorByte st.state st.index suffix) (S.rate - 1) 0x80)

variable {S}

@[simp] theorem xorBytes_nil (s : σ) (i : Nat) : S.xorBytes s i [] = s := rfl

@[simp] theorem xorBytes_cons (s : σ) (i : Nat) (b : UInt8) (bs : Bytes) :
    S.xorBytes s i (b :: bs) = S.xorBytes (S.xorByte s i b) (i + 1) bs := rfl

theorem xorBytes_append (s : σ) (i : Nat) (as bs : Bytes) :
    S.xorBytes s i (as ++ bs) = S.xorBytes (S.xorBytes s i as) (i + as.length) bs := by
  induction as generalizing s i with
  | nil => rfl
  | cons a as ih =>
    rw [List.cons_append, xorBytes_cons, ih, xorBytes_cons, List.length_cons, Nat.add_right_comm,
      Nat.add_assoc]

/-- Zero bytes change nothing. -/
theorem xorBytes_replicate_zero (s : σ) (i n : Nat) :
    S.xorBytes s i (List.replicate n 0) = s := by
  induction n generalizing i with
  | zero => rfl
  | succ n ih => rw [List.replicate_succ, xorBytes_cons, S.xorByte_zero, ih]

/-- A byte xored into the last byte of a string is xored into the state. -/
theorem xorBytes_xorLast (s : σ) (i : Nat) (b : UInt8) {bs : Bytes} (h : bs ≠ []) :
    S.xorBytes s i (xorLast b bs) = S.xorByte (S.xorBytes s i bs) (i + bs.length - 1) b := by
  induction bs generalizing s i with
  | nil => exact absurd rfl h
  | cons x bs ih =>
    cases bs with
    | nil =>
      show S.xorByte s i (x ^^^ b) = S.xorByte (S.xorByte s i x) (i + 1 - 1) b
      rw [Nat.add_sub_cancel, S.xorByte_xorByte]
    | cons y bs =>
      show S.xorBytes (S.xorByte s i x) (i + 1) (xorLast b (y :: bs)) = _
      rw [ih _ _ (List.cons_ne_nil y bs), xorBytes_cons]
      congr 1
      simp only [List.length_cons]
      omega

@[simp] theorem length_xorLast (b : UInt8) (bs : Bytes) : (xorLast b bs).length = bs.length := by
  induction bs with
  | nil => rfl
  | cons x bs ih =>
    cases bs with
    | nil => rfl
    | cons y bs =>
      show (xorLast b (y :: bs)).length + 1 = (y :: bs).length + 1
      rw [ih]

/-- The last byte of a longer string is the last byte of its end. -/
theorem xorLast_append (b : UInt8) (as : Bytes) {bs : Bytes} (h : bs ≠ []) :
    xorLast b (as ++ bs) = as ++ xorLast b bs := by
  induction as with
  | nil => rfl
  | cons a as ih =>
    obtain ⟨y, ys, hy⟩ := List.exists_cons_of_ne_nil (List.append_ne_nil_of_right_ne_nil as h)
    rw [List.cons_append, hy, xorLast, ← hy, ih, List.cons_append]

@[simp] theorem absorb_nil (st : S.Absorbing) : S.absorb st [] = st := rfl

theorem absorb_cons (st : S.Absorbing) (b : UInt8) (bs : Bytes) :
    S.absorb st (b :: bs) = S.absorb (S.absorbByte st b) bs := rfl

/-- **Absorption does not depend on how the data is split.** -/
theorem absorb_append (st : S.Absorbing) (as bs : Bytes) :
    S.absorb st (as ++ bs) = S.absorb (S.absorb st as) bs := List.foldl_append

/-- Data that stays inside the block. -/
theorem absorb_of_lt (st : S.Absorbing) {data : Bytes} (h : st.index + data.length < S.rate) :
    S.absorb st data = ⟨S.xorBytes st.state st.index data, st.index + data.length, h⟩ := by
  induction data generalizing st with
  | nil => rfl
  | cons b bs ih =>
    rw [List.length_cons] at h
    have hb : S.absorbByte st b = ⟨S.xorByte st.state st.index b, st.index + 1, by omega⟩ :=
      dif_neg (by omega)
    rw [absorb_cons, ih _ (by rw [hb]; show st.index + 1 + bs.length < S.rate; omega)]
    simp only [hb, xorBytes_cons, List.length_cons]
    congr 1
    omega

/-- Data that fills the block exactly. -/
theorem absorb_of_eq (st : S.Absorbing) {data : Bytes} (h : st.index + data.length = S.rate) :
    S.absorb st data = S.start (S.permute (S.xorBytes st.state st.index data)) := by
  have hlt := st.index_lt
  obtain ⟨init, b, rfl⟩ := List.eq_nil_or_concat data |>.resolve_left
    (List.ne_nil_of_length_pos (by omega))
  rw [List.concat_eq_append, List.length_append, List.length_singleton] at h
  rw [List.concat_eq_append, absorb_append,
    absorb_of_lt st (show st.index + init.length < S.rate by omega), xorBytes_append]
  exact dif_pos (by show st.index + init.length + 1 = S.rate; omega)

/-- Whole blocks, from the start of a block. -/
theorem absorb_start_of_dvd (s : σ) {input : Bytes} (h : S.rate ∣ input.length) :
    S.absorb (S.start s) input = S.start (S.absorbBlocks s input) := by
  obtain ⟨k, hk⟩ := h
  induction k generalizing s input with
  | zero =>
    have hnil : input = [] := List.eq_nil_of_length_eq_zero (by rw [hk, Nat.mul_zero])
    rw [hnil, absorbBlocks, chunks_nil]
    rfl
  | succ k ih =>
    rw [Nat.mul_succ] at hk
    have htake : (input.take S.rate).length = S.rate := List.length_take_of_le (by omega)
    have hdrop : (input.drop S.rate).length = S.rate * k := by
      rw [List.length_drop]
      omega
    conv => lhs; rw [← List.take_append_drop S.rate input]
    rw [absorb_append, absorb_of_eq (S.start s) (by show 0 + _ = _; omega), ih _ hdrop]
    have hchunks := chunks_append S.rate_pos htake (input.drop S.rate)
    rw [List.take_append_drop] at hchunks
    rw [absorbBlocks, absorbBlocks, hchunks, List.foldl_cons]
    rfl

/-- The position after a string. -/
theorem index_absorb (st : S.Absorbing) (data : Bytes) :
    (S.absorb st data).index = (st.index + data.length) % S.rate := by
  induction data generalizing st with
  | nil => exact (Nat.mod_eq_of_lt st.index_lt).symm
  | cons b bs ih =>
    have hlt := st.index_lt
    rw [absorb_cons, ih, absorbByte, List.length_cons]
    split
    next h =>
      rw [show st.index + (bs.length + 1) = bs.length + S.rate by omega, Nat.add_mod_right,
        Nat.zero_add]
    next h => rw [Nat.add_assoc, Nat.add_comm 1]

/-- A padded message is whole blocks. -/
theorem dvd_length_pad (suffix : UInt8) (msg : Bytes) : S.rate ∣ (S.pad suffix msg).length := by
  have hmod := Nat.mod_lt msg.length S.rate_pos
  have hdiv := Nat.div_add_mod msg.length S.rate
  refine ⟨msg.length / S.rate + 1, ?_⟩
  rw [pad, length_xorLast, List.length_append, List.length_cons, List.length_replicate,
    Nat.mul_succ]
  omega

/-- **Byte by byte is block by block.** A message absorbed byte by byte and finished
is the block sponge on the padded message. -/
theorem absorb_pad (s : σ) (suffix : UInt8) (msg : Bytes) :
    S.finish (S.absorb (S.start s) msg) suffix = S.absorbBlocks s (S.pad suffix msg) := by
  have hindex : (S.absorb (S.start s) msg).index = msg.length % S.rate := by
    rw [index_absorb]
    exact congrArg (· % S.rate) (Nat.zero_add _)
  have hmod := Nat.mod_lt msg.length S.rate_pos
  have htail : suffix :: List.replicate (S.rate - 1 - msg.length % S.rate) (0 : UInt8) ≠ [] :=
    List.cons_ne_nil _ _
  have hpad : S.pad suffix msg = msg ++ xorLast 0x80
      (suffix :: List.replicate (S.rate - 1 - msg.length % S.rate) 0) :=
    xorLast_append _ _ htail
  have hblocks := absorb_start_of_dvd s (dvd_length_pad (S := S) suffix msg)
  -- the padding fills the block in which the message ends
  rw [hpad, absorb_append, absorb_of_eq _ (by
      rw [hindex, length_xorLast, List.length_cons, List.length_replicate]
      omega), xorBytes_xorLast _ _ _ htail, xorBytes_cons, xorBytes_replicate_zero,
      ← hpad] at hblocks
  have hlast : (S.absorb (S.start s) msg).index
      + (suffix :: List.replicate (S.rate - 1 - msg.length % S.rate) (0 : UInt8)).length - 1
      = S.rate - 1 := by
    rw [hindex, List.length_cons, List.length_replicate]
    omega
  rw [hlast] at hblocks
  exact congrArg Absorbing.state hblocks

end Sponge
