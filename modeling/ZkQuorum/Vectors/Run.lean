import ZkQuorum.Vectors.File
import ZkQuorum.Crypto.Acceptance

/-!
# The signature vectors in the guest (methods/guest/src/bin/zkq_vectors.rs)

The guest reads one frame of 129-byte records and stops at the first one on which `fourq_verify`
does not answer as it expects. `run_fixture --vectors` runs it on the file of gen_vectors.

- `checkRecords_eq`: the loop stops at the first record with another answer;
- **`runVectors_eq`**: from the file to the verdict, the run passes just when the port answers as
  the reference on every vector, and otherwise the guest names the first one on which they differ.
-/

namespace ZkQuorum.Vectors

open Rust Text LittleEndian

/-! ## The guest -/

/-- `RECORD`. -/
def recordSize : Nat := 32 + 64 + 32 + 1

/-- `write_frame` of the host: the length as a `u32`, and the bytes. -/
def writeFrame (payload : Bytes) : Bytes := ofU32 (UInt32.ofNat payload.length) ++ payload

/-- `read_slice` of `n` bytes. -/
def readSlice (n : Nat) (input : Bytes) : Rust (Bytes × Bytes) :=
  if n ≤ input.length then .ok (input.take n, input.drop n) else .error .endOfInput

/-- `read_frame`: the frame, in a vector of its length. -/
def readFrame (input : Bytes) : Rust (Bytes × Bytes) := do
  let (len, input) ← readSlice 4 input
  let len := (toU32 len).toNat
  allocate32 len
  readSlice len input

/-- `fourq_verify(pk, sig, digest) == 1`. -/
def fourqVerify (verify : Verify) (pk : ByteVec 32) (sig : ByteVec 64) (digest : ByteVec 32) :
    Bool :=
  verify pk digest sig

/-- The body of the loop over `records.chunks_exact(RECORD)`. -/
def checkRecord (verify : Verify) (n : UInt32) (r : Bytes) : Rust UInt32 := do
  let buf := List.replicate (recordSize - 1) 0
  let buf ← copyFromSlice buf 0 (recordSize - 1) (← slice r 0 (recordSize - 1))
  let pk ← toArray 32 (← slice buf 0 32)
  let sig ← toArray 64 (← slice buf 32 96)
  let digest ← toArray 32 (← slice buf 96 128)
  let got := fourqVerify verify pk sig digest
  let expected ← slice r (recordSize - 1) recordSize
  assert (got == (expected == [1])) s!"vector {n.toNat} mismatch"
  return n + 1

/-- `main` of zkq_vectors. -/
def zkqVectors (verify : Verify) (input : Bytes) : Rust Bytes := do
  let (records, _) ← readFrame input
  assert (records.length % recordSize == 0) "assertion left == right failed"
  let n ← (chunksExact recordSize records).foldlM (checkRecord verify) 0
  return ofU32 n

/-! ## The host -/

/-- `.expect("guest rejected a vector")` on what the executor returns. -/
def executed (result : Rust Bytes) : Rust Bytes := expect result.toOption "guest rejected a vector"

/-- `run_vectors`. -/
def runVectors (hexDecode : List Char → Option Bytes) (verify : Verify) (text : List Char) :
    Rust UInt32 := do
  let (records, n) ← readRecords hexDecode text
  let journal ← executed (zkqVectors verify (writeFrame records))
  assert (journal == ofU32 n) "vector count journal"
  return n

/-! ## The loop -/

theorem readFrame_writeFrame {payload : Bytes} (h : payload.length < 2 ^ 31) :
    readFrame (writeFrame payload) = .ok (payload, []) := by
  have hlen : (ofU32 (UInt32.ofNat payload.length)).length = 4 := length_ofU32 _
  have hsize : (UInt32.ofNat payload.length).toNat = payload.length :=
    UInt32.toNat_ofNat_of_lt' (Nat.lt_trans h (by decide))
  have hhead : readSlice 4 (writeFrame payload)
      = .ok (ofU32 (UInt32.ofNat payload.length), payload) := by
    rw [readSlice, writeFrame, if_pos (by rw [List.length_append]; omega),
      List.take_left' hlen, List.drop_left' hlen]
  rw [readFrame, hhead]
  show (allocate32 (toU32 (ofU32 (UInt32.ofNat payload.length))).toNat >>= fun _ =>
    readSlice (toU32 (ofU32 (UInt32.ofNat payload.length))).toNat payload) = _
  have hroom : payload.length ≤ isizeMax32 := Nat.le_sub_one_of_lt h
  rw [toU32_ofU32, hsize, allocate32_bind, if_pos hroom, readSlice, if_pos (Nat.le_refl _),
    List.take_length, List.drop_length]

theorem length_bytes (r : Rec) : r.bytes.length = recordSize := by
  simp only [Rec.bytes, List.length_append, ByteVec.length_val]
  rfl

/-- Pieces of one size come back from their concatenation. -/
theorem chunksExact_flatMap {α : Type} {f : α → Bytes} {n : Nat} (hn : 0 < n)
    (hf : ∀ a, (f a).length = n) (as : List α) : chunksExact n (as.flatMap f) = as.map f := by
  induction as with
  | nil =>
    rw [List.flatMap_nil, chunksExact, dif_pos (.inr hn), List.map_nil]
  | cons a as ih =>
    have hlen : ¬ (n = 0 ∨ (f a ++ as.flatMap f).length < n) := by
      rw [List.length_append, hf]
      omega
    rw [List.flatMap_cons, chunksExact, dif_neg hlen, List.take_left' (hf a),
      List.drop_left' (hf a), ih, List.map_cons]

variable {verify oracle : Verify}

/-- The verifier answers as the vector expects. -/
def answers (verify : Verify) (r : Rec) : Bool :=
  verify r.pub r.msg r.sig == decide (r.expected = 1)

/-- A middle part of a slice. -/
theorem slice_middle {a b c : Bytes} {i j : Nat} (ha : a.length = i) (hb : i + b.length = j) :
    slice (a ++ b ++ c) i j = .ok b := by
  have hlen : (a ++ b ++ c).length = j + c.length := by
    rw [List.length_append, List.length_append]
    omega
  rw [slice_of_le (by omega) (by omega), take_drop_middle ha (by omega)]

theorem assert_then {α : Type} (c : Bool) (text : String) (a : α) :
    (do assert c text; return a) = if c then .ok a else panicWith text := by
  cases c with
  | true => rfl
  | false => rfl

theorem checkRecord_bytes (n : UInt32) (r : Rec) : checkRecord verify n r.bytes
    = if answers verify r then .ok (n + 1) else panicWith s!"vector {n.toNat} mismatch" := by
  obtain ⟨expected, ⟨pub, hpub⟩, ⟨sig, hsig⟩, ⟨msg, hmsg⟩, note⟩ := r
  have hbody : (pub ++ sig ++ msg).length = recordSize - 1 := by
    rw [List.length_append, List.length_append, hpub, hsig, hmsg]
    rfl
  -- the last byte is 1 just when the vector expects 1
  have hflag : ((if expected = 1 then [1] else [0] : Bytes) == [1]) = decide (expected = 1) := by
    by_cases h : expected = 1
    · rw [if_pos h, decide_eq_true h]
      rfl
    · rw [if_neg h, decide_eq_false h]
      rfl
  have hbytes : Rec.bytes ⟨expected, ⟨pub, hpub⟩, ⟨sig, hsig⟩, ⟨msg, hmsg⟩, note⟩
      = pub ++ sig ++ msg ++ if expected = 1 then [1] else [0] := by
    rw [Rec.bytes]
    split
    · rfl
    · rfl
  have hlast : (if expected = 1 then [1] else [0] : Bytes).length = 1 := by
    split
    · rfl
    · rfl
  rw [hbytes]
  generalize (if expected = 1 then [1] else [0] : Bytes) = last at hflag hlast
  -- the fields at their offsets
  have hrecord : slice (pub ++ sig ++ msg ++ last) 0 (recordSize - 1) = .ok (pub ++ sig ++ msg) :=
    slice_middle (a := []) rfl ((Nat.zero_add _).trans hbody)
  have hcopy : copyFromSlice (List.replicate (recordSize - 1) 0) 0 (recordSize - 1)
      (pub ++ sig ++ msg) = .ok (pub ++ sig ++ msg) := by
    have hroom : recordSize - 1 ≤ (List.replicate (recordSize - 1) (0 : UInt8)).length :=
      Nat.le_of_eq List.length_replicate.symm
    rw [copyFromSlice_of_length (Nat.zero_le _) hroom hbody, List.take_zero, List.nil_append,
      List.drop_replicate, Nat.sub_self, List.replicate_zero, List.append_nil]
  have hpk : slice (pub ++ sig ++ msg) 0 32 = .ok pub := by
    rw [List.append_assoc]
    exact slice_middle (a := []) rfl (by omega)
  have hsigBytes : slice (pub ++ sig ++ msg) 32 96 = .ok sig := slice_middle hpub (by omega)
  have hdigest : slice (pub ++ sig ++ msg) 96 128 = .ok msg := by
    rw [← List.append_nil (pub ++ sig ++ msg)]
    exact slice_middle (by rw [List.length_append]; omega) (by omega)
  have hexpected : slice (pub ++ sig ++ msg ++ last) (recordSize - 1) recordSize = .ok last := by
    rw [← List.append_nil (pub ++ sig ++ msg ++ last)]
    exact slice_middle hbody (by rw [hlast]; rfl)
  simp only [checkRecord, hrecord, hcopy, hpk, hsigBytes, hdigest, hexpected, ok_bind,
    toArray_of_length hpub, toArray_of_length hsig, toArray_of_length hmsg, hflag, fourqVerify,
    answers]
  exact assert_then _ _ _

/-- A result, or the panic at a vector. -/
def unlessMismatch {α : Type} (a : α) : Option Nat → Rust α
  | none => .ok a
  | some i => panicWith s!"vector {i} mismatch"

/-- **The loop stops at the first record with another answer.** -/
theorem checkRecords_eq (rs : List Rec) (n : Nat) (hsize : n + rs.length < 2 ^ 32) :
    (rs.map Rec.bytes).foldlM (checkRecord verify) (UInt32.ofNat n)
      = unlessMismatch (UInt32.ofNat (n + rs.length))
          ((rs.findIdx? fun r => !answers verify r).map (n + ·)) := by
  induction rs generalizing n with
  | nil => rfl
  | cons r rs ih =>
    rw [List.length_cons] at hsize
    have hn : (UInt32.ofNat n).toNat = n :=
      UInt32.toNat_ofNat_of_lt' (Nat.lt_of_le_of_lt (Nat.le_add_right n _) hsize)
    rw [List.map_cons, List.foldlM_cons, checkRecord_bytes, List.findIdx?_cons, hn]
    -- another answer ends the loop here
    cases h : answers verify r with
    | false => rfl
    | true =>
      have hnext : UInt32.ofNat n + 1 = UInt32.ofNat (n + 1) := (UInt32.ofNat_add n 1).symm
      rw [if_pos rfl, ok_bind, hnext, ih (n + 1) (by omega), Bool.not_true,
        if_neg Bool.false_ne_true]
      have hshift : ∀ i, n + 1 + i = n + (i + 1) := fun i => by
        rw [Nat.add_right_comm, Nat.add_assoc]
      rw [hshift, List.length_cons, Option.map_map]
      exact congrArg (fun f => unlessMismatch _ (Option.map f _)) (funext hshift)

/-- **What the guest answers on records.** -/
theorem zkqVectors_eq {rs : List Rec} (hsize : rs.length * recordSize < 2 ^ 31) :
    zkqVectors verify (writeFrame (rs.flatMap Rec.bytes))
      = unlessMismatch (ofU32 (UInt32.ofNat rs.length))
        (rs.findIdx? fun r => !answers verify r) := by
  have hlen : (rs.flatMap Rec.bytes).length = rs.length * recordSize :=
    length_flatMap_blocks fun r _ => length_bytes r
  have hcount : 0 + rs.length < 2 ^ 32 := by
    have hle : rs.length ≤ rs.length * recordSize := Nat.le_mul_of_pos_right _ (by decide)
    omega
  have hloop : (rs.map Rec.bytes).foldlM (checkRecord verify) 0
      = unlessMismatch (UInt32.ofNat (0 + rs.length))
          ((rs.findIdx? fun r => !answers verify r).map (0 + ·)) :=
    checkRecords_eq rs 0 hcount
  rw [zkqVectors, readFrame_writeFrame (by rw [hlen]; exact hsize)]
  simp only [ok_bind]
  rw [hlen, Nat.mul_mod_left, beq_self_eq_true, assert_true, ok_bind,
    chunksExact_flatMap (by decide) length_bytes, hloop]
  cases rs.findIdx? fun r => !answers verify r with
  | none => simp only [unlessMismatch, Option.map_none, ok_bind, Nat.zero_add, pure_eq_ok]
  | some i => simp only [unlessMismatch, Option.map_some, Nat.zero_add, panicWith, error_bind]

/-! ## From the file to the verdict -/

/-- The two verifiers answer alike. -/
def agrees (verify oracle : Verify) (r : Rec) : Bool :=
  verify r.pub r.msg r.sig == oracle r.pub r.msg r.sig

theorem answers_of_verdict {r : Rec} (h : verdict oracle r = r.expected) :
    answers verify r = agrees verify oracle r := by
  have hflag : decide (r.expected = 1) = oracle r.pub r.msg r.sig := by
    rw [← h, verdict]
    cases oracle r.pub r.msg r.sig with
    | true => rfl
    | false => rfl
  rw [answers, hflag, agrees]

theorem findIdx?_congr {α : Type} {f g : α → Bool} {as : List α} (h : ∀ a ∈ as, f a = g a) :
    as.findIdx? f = as.findIdx? g := by
  induction as with
  | nil => rfl
  | cons a as ih =>
    obtain ⟨ha, has⟩ := List.forall_mem_cons.mp h
    rw [List.findIdx?_cons, List.findIdx?_cons, ha, ih has]

/-- **The run on a file of gen_vectors.** It passes just when the port answers as the reference on
every vector, and otherwise the guest names the first on which it does not. -/
theorem runVectors_eq {hexDecode : List Char → Option Bytes} (hhex : ReadsHex hexDecode)
    {rs : List Rec} {text : List Char} (hgen : genVectors oracle rs = .ok text)
    (hnotes : ∀ r ∈ rs, ∀ c ∈ r.note, isWhitespace c = false)
    (hsize : rs.length * recordSize < 2 ^ 31) :
    (∃ records, readRecords hexDecode text = .ok (records, UInt32.ofNat rs.length) ∧
      zkqVectors verify (writeFrame records) = unlessMismatch (ofU32 (UInt32.ofNat rs.length))
        (rs.findIdx? fun r => !agrees verify oracle r)) ∧
    runVectors hexDecode verify text
      = if ∀ r ∈ rs, verify r.pub r.msg r.sig = oracle r.pub r.msg r.sig then
          .ok (UInt32.ofNat rs.length)
        else panicWith "guest rejected a vector" := by
  obtain ⟨hverdict, rfl⟩ := genVectors_eq_ok.mp hgen
  have hwritable : ∀ r ∈ rs, r.Writable := by
    intro r hr
    refine { expected := ?_, note := hnotes r hr }
    rw [← hverdict r hr]
    exact verdict_cases oracle r
  have hread := readRecords_vectorsFile hhex hwritable
  have hguest : zkqVectors verify (writeFrame (rs.flatMap Rec.bytes)) = _ := zkqVectors_eq hsize
  have hanswers : rs.findIdx? (fun r => !answers verify r)
      = rs.findIdx? fun r => !agrees verify oracle r :=
    findIdx?_congr fun r hr => congrArg _ (answers_of_verdict (hverdict r hr))
  rw [hanswers] at hguest
  refine ⟨⟨_, hread, hguest⟩, ?_⟩
  rw [runVectors, hread]
  simp only [ok_bind]
  rw [hguest]
  -- of the guest the host sees whether it ended, and then the journal
  cases hfind : rs.findIdx? fun r => !agrees verify oracle r with
  | none =>
    have hall : ∀ r ∈ rs, verify r.pub r.msg r.sig = oracle r.pub r.msg r.sig := by
      intro r hr
      have hr' := List.findIdx?_eq_none_iff.mp hfind r hr
      rw [Bool.not_eq_false'] at hr'
      exact beq_iff_eq.mp hr'
    rw [if_pos hall]
    show (do assert (_ == _) _; pure _ : Rust UInt32) = _
    rw [beq_self_eq_true]
    rfl
  | some i =>
    have hnot : ¬ ∀ r ∈ rs, verify r.pub r.msg r.sig = oracle r.pub r.msg r.sig := by
      intro hall
      obtain ⟨hi, hdiffers, -⟩ := List.findIdx?_eq_some_iff_getElem.mp hfind
      rw [agrees, beq_iff_eq.mpr (hall _ (List.getElem_mem hi))] at hdiffers
      cases hdiffers
    rw [if_neg hnot]
    rfl

/-! ## A small run -/

/-- The value of a hex digit. -/
def hexValue (c : Char) : Option UInt8 :=
  if 48 ≤ c.toNat ∧ c.toNat ≤ 57 then some (UInt8.ofNat (c.toNat - 48))
  else if 97 ≤ c.toNat ∧ c.toNat ≤ 102 then some (UInt8.ofNat (c.toNat - 87))
  else if 65 ≤ c.toNat ∧ c.toNat ≤ 70 then some (UInt8.ofNat (c.toNat - 55))
  else none

/-- Two digits are a byte. -/
def demoHexDecode : List Char → Option Bytes
  | [] => some []
  | [_] => none
  | c :: d :: rest => do
    let hi ← hexValue c
    let lo ← hexValue d
    let out ← demoHexDecode rest
    return (16 * hi + lo) :: out

theorem hexValue_hexChar : ∀ n : Fin 16, hexValue (hexChar n) = some (UInt8.ofNat n) := by
  decide +kernel

theorem demoHexDecode_readsHex : ReadsHex demoHexDecode where
  nil := rfl
  cons hi lo rest out h := by
    have hbyte : 16 * UInt8.ofNat hi + UInt8.ofNat lo = UInt8.ofNat (16 * hi + lo) := by
      rw [UInt8.ofNat_add, UInt8.ofNat_mul]
      rfl
    rw [demoHexDecode, hexValue_hexChar, hexValue_hexChar, h, ← hbyte]
    rfl

theorem length_markedSig :
    (List.replicate 15 0 ++ 0x80 :: List.replicate 48 0 : Bytes).length = 64 :=
  rfl

/-- A vector whose signature has the unused bit of R set. -/
def demoRec : Rec where
  expected := 0
  pub := ByteVec.zero 32
  sig := ⟨List.replicate 15 0 ++ 0x80 :: List.replicate 48 0, length_markedSig⟩
  msg := ByteVec.zero 32
  note := "sig-bit128-set".toList

/-- The theorem at this vector, with the verifiers. -/
theorem runVectors_demo : ∃ text,
    genVectors (Crypto.Stock.verify Crypto.Stock.k12 0 fun _ => 0) [demoRec] = .ok text ∧
    runVectors demoHexDecode (Crypto.verify .bigint2) text
      = if ∀ r ∈ [demoRec], Crypto.verify .bigint2 r.pub r.msg r.sig
            = Crypto.Stock.verify Crypto.Stock.k12 0 (fun _ => 0) r.pub r.msg r.sig then
          .ok 1
        else panicWith "guest rejected a vector" := by
  have hgen : genVectors (Crypto.Stock.verify Crypto.Stock.k12 0 fun _ => 0) [demoRec]
      = .ok (vectorsFile [demoRec]) := by
    refine genVectors_eq_ok.mpr ⟨?_, rfl⟩
    intro r hr
    obtain rfl := List.mem_singleton.mp hr
    decide +kernel
  have hnotes : ∀ r ∈ [demoRec], ∀ c ∈ r.note, isWhitespace c = false := by
    intro r hr
    obtain rfl := List.mem_singleton.mp hr
    exact blankless_of_all (by decide)
  exact ⟨_, hgen, (runVectors_eq demoHexDecode_readsHex hgen hnotes (by decide)).2⟩

end ZkQuorum.Vectors
