import ZkQuorum.Lib.Bytes

/-!
# Length-prefixed records

A record is `len u32 LE | bytes`; a sequence of records has no other framing.

- `encode` / `encodeAll` write records;
- `read` takes one record off the front, `readAll n` the next `n`; where a
  record is cut short both say which part of it is missing.

`read_encode` and `encode_of_read` make the format exact in both directions.
-/

namespace Records

open LittleEndian

/-- The part of a record that a string is too short for. -/
inductive Cut where
  | length
  | body
deriving DecidableEq, Repr

/-- The `u32` length of a byte string, truncated as the cast `as u32` does. -/
def lengthBytes (b : Bytes) : Bytes := ofU32 (UInt32.ofNat b.length)

/-- One record. -/
def encode (b : Bytes) : Bytes := lengthBytes b ++ b

/-- A sequence of records. -/
def encodeAll (bs : List Bytes) : Bytes := bs.flatMap encode

/-- Take one record off the front: its bytes and what follows them. -/
def read (s : Bytes) : Except Cut (Bytes × Bytes) :=
  if s.length < 4 then .error .length
  else
    let len := (toU32 (s.take 4)).toNat
    let body := s.drop 4
    if body.length < len then .error .body
    else .ok (body.take len, body.drop len)

/-- Take up to `n` records off the front: the ones present, and either what
follows the last or how the first missing one is cut. -/
def readAll : Nat → Bytes → List Bytes × Except Cut Bytes
  | 0, s => ([], .ok s)
  | n + 1, s =>
    match read s with
    | .error c => ([], .error c)
    | .ok (b, rest) => (b :: (readAll n rest).1, (readAll n rest).2)

@[simp] theorem length_lengthBytes (b : Bytes) : (lengthBytes b).length = 4 := length_ofU32 _

theorem length_encode (b : Bytes) : (encode b).length = 4 + b.length := by
  simp [encode]

@[simp] theorem encodeAll_nil : encodeAll [] = [] := rfl

@[simp] theorem encodeAll_cons (b : Bytes) (bs : List Bytes) :
    encodeAll (b :: bs) = encode b ++ encodeAll bs := List.flatMap_cons

theorem encodeAll_append (bs cs : List Bytes) :
    encodeAll (bs ++ cs) = encodeAll bs ++ encodeAll cs := List.flatMap_append

/-- A sequence of `n` records has at least `4 * n` bytes. -/
theorem length_encodeAll_ge (bs : List Bytes) : 4 * bs.length ≤ (encodeAll bs).length := by
  induction bs with
  | nil => simp
  | cons b bs ih =>
    rw [encodeAll_cons, List.length_append, length_encode, List.length_cons]
    omega

/-- A sequence of records of at most `m` bytes. -/
theorem length_encodeAll_le {bs : List Bytes} {m : Nat} (h : ∀ b ∈ bs, b.length ≤ m) :
    (encodeAll bs).length ≤ bs.length * (4 + m) := by
  induction bs with
  | nil => rw [encodeAll_nil, List.length_nil]; exact Nat.zero_le _
  | cons b bs ih =>
    have hb := h b List.mem_cons_self
    have ih' := ih fun c hc => h c (List.mem_cons_of_mem b hc)
    rw [encodeAll_cons, List.length_append, length_encode, List.length_cons, Nat.succ_mul]
    omega

/-- Each record of a sequence is shorter than the sequence. -/
theorem length_le_of_mem {b : Bytes} {bs : List Bytes} (h : b ∈ bs) :
    4 + b.length ≤ (encodeAll bs).length := by
  obtain ⟨pre, post, rfl⟩ := List.append_of_mem h
  rw [encodeAll_append, encodeAll_cons, List.length_append, List.length_append, length_encode]
  omega

/-- A string that starts with the length of `b` and `b` reads as `b`. -/
theorem read_encode {b rest : Bytes} (hb : b.length < 2 ^ 32) :
    read (encode b ++ rest) = .ok (b, rest) := by
  have htake : (encode b ++ rest).take 4 = lengthBytes b := by
    rw [encode, List.append_assoc, List.take_append_of_le_length (by simp),
      List.take_of_length_le (by simp)]
  have hdrop : (encode b ++ rest).drop 4 = b ++ rest := by
    rw [encode, List.append_assoc, List.drop_append_of_le_length (by simp),
      List.drop_of_length_le (by simp), List.nil_append]
  have hlen : (toU32 (lengthBytes b)).toNat = b.length := by
    rw [lengthBytes, toU32_ofU32, UInt32.toNat_ofNat', Nat.mod_eq_of_lt hb]
  have h4 : ¬ (encode b ++ rest).length < 4 := by
    rw [List.length_append, length_encode]
    omega
  rw [read, if_neg h4]
  simp only [htake, hdrop, hlen]
  rw [if_neg (by simp), List.take_left' rfl, List.drop_left' rfl]

/-- What reads as `b` starts with the record of `b`. -/
theorem encode_of_read {s b rest : Bytes} (h : read s = .ok (b, rest)) :
    s = encode b ++ rest ∧ b.length < 2 ^ 32 := by
  rw [read] at h
  split at h
  · cases h
  · rename_i h4
    simp only at h
    split at h
    · cases h
    · rename_i hlen
      rw [Except.ok.injEq, Prod.mk.injEq] at h
      obtain ⟨rfl, rfl⟩ := h
      have ht4 : (s.take 4).length = 4 := List.length_take_of_le (by omega)
      have hbody : ((s.drop 4).take (toU32 (s.take 4)).toNat).length
          = (toU32 (s.take 4)).toNat := List.length_take_of_le (by omega)
      refine ⟨?_, by rw [hbody]; exact UInt32.toNat_lt _⟩
      rw [encode, lengthBytes, hbody, UInt32.ofNat_toNat, ofU32_toU32 ht4, List.append_assoc,
        List.take_append_drop, List.take_append_drop]

theorem readAll_of_error {n : Nat} {s : Bytes} {c : Cut} (h : read s = .error c) :
    readAll (n + 1) s = ([], .error c) := by
  rw [readAll, h]

theorem readAll_of_ok {n : Nat} {s b rest : Bytes} (h : read s = .ok (b, rest)) :
    readAll (n + 1) s = (b :: (readAll n rest).1, (readAll n rest).2) := by
  rw [readAll, h]

/-- A full sequence of records reads back as itself. -/
theorem readAll_encodeAll {bs : List Bytes} (hbs : ∀ b ∈ bs, b.length < 2 ^ 32) (rest : Bytes) :
    readAll bs.length (encodeAll bs ++ rest) = (bs, .ok rest) := by
  induction bs with
  | nil => rfl
  | cons b bs ih =>
    have hb := hbs b List.mem_cons_self
    have ih' := ih fun c hc => hbs c (List.mem_cons_of_mem _ hc)
    rw [List.length_cons, encodeAll_cons, List.append_assoc, readAll_of_ok (read_encode hb), ih']

end Records
