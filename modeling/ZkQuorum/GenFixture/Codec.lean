import ZkQuorum.GenFixture.Commits
import ZkQuorum.Lib.Loops

/-!
# The transaction codec (crypto/tools/gen_fixture.c)

`build_tx` as the C code runs it: it zeroes the header in its buffer, shifts each integer
out byte by byte, and hashes and signs what is in the buffer by then.

- `putU16_eq`, `putU32_eq` and `putU64_eq`: the shifts are the little-endian codec.
- `builtTx_eq`: what is in the buffer is `buildTx`, whatever was in it before.
- **`transaction_codec`**: the guest reads back what is in the buffer, checks the
  signature over what was signed, and accepts no string with another layout.
-/

namespace ZkQuorum.GenFixture

open LittleEndian Guest

/-! ## The code -/

/-- `put_u16`. -/
def putU16 (p : Bytes) (off : Nat) (v : UInt16) : Bytes :=
  (p.set off (v &&& 0xff).toUInt8).set (off + 1) (v >>> 8).toUInt8

/-- `put_u32`. -/
def putU32 (p : Bytes) (off : Nat) (v : UInt32) : Bytes :=
  forRange 4 p fun p i => p.set (off + i) ((v >>> UInt32.ofNat (8 * i)) &&& 0xff).toUInt8

/-- `put_u64`. -/
def putU64 (p : Bytes) (off : Nat) (v : UInt64) : Bytes :=
  forRange 8 p fun p i => p.set (off + i) ((v >>> UInt64.ofNat (8 * i)) &&& 0xff).toUInt8

/-- `build_tx` into `buf`: the buffer after it, and the length that is returned. -/
def buildTxInto (E : Externs) (buf : Bytes) (signer : Key) (amount : Int64) (tick : UInt32)
    (inputType : UInt16) (input : Bytes) (inputSize : UInt16) : Bytes × Nat :=
  let size := inputSize.toNat
  let buf := writeAt buf 0 (List.replicate txHeaderSize 0)
  let buf := writeAt buf 0 signer.pub.val
  let buf := putU64 buf 64 amount.toUInt64
  let buf := putU32 buf 72 tick
  let buf := putU16 buf 76 inputType
  let buf := putU16 buf 78 inputSize
  let buf := writeAt buf txHeaderSize (input.take size)
  let d := E.qubicK12 (buf.take (txHeaderSize + size))
  let buf := writeAt buf (txHeaderSize + size) (signer.sign d).val
  (buf, txHeaderSize + size + 64)

/-- The bytes laid out for an input: those up to the length that is returned. -/
def builtTx (E : Externs) (buf : Bytes) (signer : Key) (amount : Int64) (tick : UInt32)
    (inputType : UInt16) (input : Bytes) : Bytes :=
  let (buf, len) :=
    buildTxInto E buf signer amount tick inputType input (UInt16.ofNat input.length)
  buf.take len

/-! ## The integers -/

/-- The bytes of a number, each by its shift. -/
theorem ofNat_eq_ofFn (w v : Nat) :
    ofNat w v = List.ofFn fun i : Fin w => UInt8.ofNat (v / 256 ^ i.val) := by
  induction w generalizing v with
  | zero => rfl
  | succ w ih =>
    rw [ofNat, ih, List.ofFn_succ]
    refine congrArg₂ List.cons ?_ (congrArg List.ofFn (funext fun i => ?_))
    · rw [Fin.val_zero, pow_zero, Nat.div_one]
    · rw [Nat.div_div_eq_div_mul, Fin.val_succ, pow_succ']

section Writes

variable {p buf : Bytes} {off n : Nat}

/-- One more byte behind what was written. -/
theorem set_writeAt (src : Bytes) (b : UInt8) (h : off + src.length < buf.length) :
    (writeAt buf off src).set (off + src.length) b = writeAt buf off (src ++ [b]) := by
  have hfront : (buf.take off ++ src).length = off + src.length := by
    rw [List.length_append, List.length_take]
    omega
  rw [writeAt, writeAt, List.set_append_right _ _ (Nat.le_of_eq hfront), hfront, Nat.sub_self,
    List.drop_eq_getElem_cons h, List.set_cons_zero, List.length_append, List.length_singleton,
    Nat.add_assoc, List.append_assoc, List.append_assoc, List.append_assoc]
  rfl

/-- A loop that stores one byte after the other. -/
theorem forRange_set_eq_writeAt (w : Fin n → UInt8) (h : off + n ≤ p.length) :
    forRange n p (fun p i => p.set (off + i) (w i)) = writeAt p off (List.ofFn w) := by
  induction n with
  | zero =>
    rw [List.ofFn_zero, writeAt, List.append_nil, List.length_nil, Nat.add_zero,
      List.take_append_drop]
    rfl
  | succ n ih =>
    have hbytes : (List.ofFn fun i : Fin n => w i.castSucc).length = n := List.length_ofFn
    have hset := set_writeAt (List.ofFn fun i : Fin n => w i.castSucc) (w (Fin.last n))
      (show off + (List.ofFn fun i : Fin n => w i.castSucc).length < p.length by omega)
    rw [forRange_succ, List.ofFn_succ', List.concat_eq_append, ← hset, hbytes]
    exact congrArg (fun q => q.set (off + n) (w (Fin.last n)))
      (ih (fun i => w i.castSucc) (by omega))

/-- The low byte of a mask. -/
theorem and_ff_mod (v : Nat) : (v &&& 2 ^ 8 - 1) % 2 ^ 8 = v % 2 ^ 8 := by
  rw [Nat.and_two_pow_sub_one_eq_mod, Nat.mod_mod]

theorem putU16_eq (v : UInt16) (h : off + 2 ≤ p.length) :
    putU16 p off v = writeAt p off (ofU16 v) := by
  have hlow : (v &&& 0xff).toUInt8 = UInt8.ofNat (v.toNat / 256 ^ 0) := by
    apply UInt8.toNat_inj.mp
    rw [UInt16.toNat_toUInt8, UInt16.toNat_and, UInt8.toNat_ofNat', pow_zero, Nat.div_one]
    exact and_ff_mod v.toNat
  have hhigh : (v >>> 8).toUInt8 = UInt8.ofNat (v.toNat / 256 ^ 1) := by
    apply UInt8.toNat_inj.mp
    rw [UInt16.toNat_toUInt8, UInt16.toNat_shiftRight, UInt8.toNat_ofNat',
      Nat.shiftRight_eq_div_pow]
    rfl
  rw [ofU16, ofNat_eq_ofFn, ← forRange_set_eq_writeAt _ h, putU16, hlow, hhigh]
  rfl

/-- The byte that a shift brings to the front. -/
theorem toUInt8_shiftRight32 (v : UInt32) (i : Fin 4) :
    ((v >>> UInt32.ofNat (8 * i)) &&& 0xff).toUInt8 = UInt8.ofNat (v.toNat / 256 ^ i.val) := by
  have hi := i.isLt
  have hshift : (UInt32.ofNat (8 * i.val)).toNat % 32 = 8 * i.val := by
    rw [UInt32.toNat_ofNat']
    omega
  apply UInt8.toNat_inj.mp
  rw [UInt32.toNat_toUInt8, UInt32.toNat_and, UInt32.toNat_shiftRight, hshift,
    Nat.shiftRight_eq_div_pow, pow_mul, UInt8.toNat_ofNat']
  exact and_ff_mod (v.toNat / 256 ^ i.val)

theorem toUInt8_shiftRight64 (v : UInt64) (i : Fin 8) :
    ((v >>> UInt64.ofNat (8 * i)) &&& 0xff).toUInt8 = UInt8.ofNat (v.toNat / 256 ^ i.val) := by
  have hi := i.isLt
  have hshift : (UInt64.ofNat (8 * i.val)).toNat % 64 = 8 * i.val := by
    rw [UInt64.toNat_ofNat']
    omega
  apply UInt8.toNat_inj.mp
  rw [UInt64.toNat_toUInt8, UInt64.toNat_and, UInt64.toNat_shiftRight, hshift,
    Nat.shiftRight_eq_div_pow, pow_mul, UInt8.toNat_ofNat']
  exact and_ff_mod (v.toNat / 256 ^ i.val)

theorem putU32_eq (v : UInt32) (h : off + 4 ≤ p.length) :
    putU32 p off v = writeAt p off (ofU32 v) := by
  rw [ofU32, ofNat_eq_ofFn, ← forRange_set_eq_writeAt _ h, putU32]
  simp only [toUInt8_shiftRight32]

theorem putU64_eq (v : UInt64) (h : off + 8 ≤ p.length) :
    putU64 p off v = writeAt p off (ofU64 v) := by
  rw [ofU64, ofNat_eq_ofFn, ← forRange_set_eq_writeAt _ h, putU64]
  simp only [toUInt8_shiftRight64]

end Writes

/-! ## The buffer -/

/-- A buffer of `len` bytes that starts with `a`. -/
structure Filled (len : Nat) (a buf : Bytes) : Prop where
  length : buf.length = len
  front : buf.take a.length = a

namespace Filled

variable {len : Nat} {a buf : Bytes}

/-- What is written behind the front extends it. -/
theorem writeAt (h : Filled len a buf) (off : Nat) (src : Bytes) (hoff : a.length = off)
    (hroom : off + src.length ≤ len) : Filled len (a ++ src) (writeAt buf off src) := by
  subst hoff
  constructor
  · rw [length_writeAt (h.length ▸ hroom), h.length]
  · rw [List.length_append, take_writeAt src h.front rfl]

theorem putU16 (h : Filled len a buf) (off : Nat) (v : UInt16) (hoff : a.length = off)
    (hroom : off + 2 ≤ len) : Filled len (a ++ ofU16 v) (putU16 buf off v) := by
  rw [putU16_eq v (h.length ▸ hroom)]
  exact h.writeAt off (ofU16 v) hoff hroom

theorem putU32 (h : Filled len a buf) (off : Nat) (v : UInt32) (hoff : a.length = off)
    (hroom : off + 4 ≤ len) : Filled len (a ++ ofU32 v) (putU32 buf off v) := by
  rw [putU32_eq v (h.length ▸ hroom)]
  exact h.writeAt off (ofU32 v) hoff hroom

theorem putU64 (h : Filled len a buf) (off : Nat) (v : UInt64) (hoff : a.length = off)
    (hroom : off + 8 ≤ len) : Filled len (a ++ ofU64 v) (putU64 buf off v) := by
  rw [putU64_eq v (h.length ▸ hroom)]
  exact h.writeAt off (ofU64 v) hoff hroom

/-- A header is zeroed and the source goes over its front. -/
theorem zeroed (buf : Bytes) (source : ByteVec 32) (h : 80 ≤ buf.length) : Filled buf.length
    (source.val ++ List.replicate 32 0)
    (GenFixture.writeAt (GenFixture.writeAt buf 0 (List.replicate txHeaderSize 0)) 0
      source.val) := by
  have hparts : List.replicate txHeaderSize (0 : UInt8)
      = List.replicate 32 0 ++ (List.replicate 32 0 ++ List.replicate 16 0) := by decide
  have hzero : GenFixture.writeAt buf 0 (List.replicate txHeaderSize 0)
      = List.replicate 32 0 ++ (List.replicate 32 0 ++ (List.replicate 16 0 ++ buf.drop 80)) := by
    rw [GenFixture.writeAt, List.take_zero, List.nil_append, hparts, List.append_assoc,
      List.append_assoc]
    rfl
  have hover : GenFixture.writeAt (GenFixture.writeAt buf 0 (List.replicate txHeaderSize 0)) 0
        source.val
      = source.val ++ List.replicate 32 0 ++ (List.replicate 16 0 ++ buf.drop 80) := by
    rw [hzero, GenFixture.writeAt, List.take_zero, List.nil_append, source.property, Nat.zero_add,
      List.drop_left' List.length_replicate, List.append_assoc]
  rw [hover]
  constructor
  · simp only [List.length_append, source.property, List.length_replicate, List.length_drop]
    omega
  · exact List.take_left' rfl

end Filled

section Buffer

variable (E : Externs) (signer : Key) (amount : Int64) (tick : UInt32) (inputType : UInt16)
  {input buf : Bytes}

/-- **The buffer holds `buildTx`**, whatever was in it before. -/
theorem builtTx_eq (h : input.length < 2 ^ 16)
    (hroom : txHeaderSize + input.length + signatureSize ≤ buf.length) :
    builtTx E buf signer amount tick inputType input
      = buildTx E signer amount tick inputType input := by
  have hsize : (UInt16.ofNat input.length).toNat = input.length := by
    rw [UInt16.toNat_ofNat', Nat.mod_eq_of_lt h]
  have hroom' : 80 + input.length + 64 ≤ buf.length := hroom
  have hsource := Filled.zeroed buf signer.pub (by omega)
  have hamount := hsource.putU64 64 amount.toUInt64 (by simp [signer.pub.property]) (by omega)
  have htick := hamount.putU32 72 tick (by simp [signer.pub.property]) (by omega)
  have htype := htick.putU16 76 inputType (by simp [signer.pub.property]) (by omega)
  have hfield := htype.putU16 78 (UInt16.ofNat input.length) (by simp [signer.pub.property])
    (by omega)
  have hlen := length_signedPart signer amount tick inputType input
  have hsigned : Filled buf.length (signedPart signer amount tick inputType input) _ :=
    hfield.writeAt txHeaderSize input (by simp [signer.pub.property])
      (by unfold txHeaderSize; omega)
  have hfront := hsigned.front
  rw [hlen] at hfront
  -- what is hashed is this front, and the signature goes behind it
  have hbuilt : Filled buf.length (buildTx E signer amount tick inputType input) _ :=
    hsigned.writeAt (txHeaderSize + input.length)
      (signer.sign (E.qubicK12 (signedPart signer amount tick inputType input))).val hlen
      (by rw [ByteVec.length_val]; exact hroom)
  have hall := hbuilt.front
  rw [length_buildTx] at hall
  simp only [builtTx, buildTxInto, hsize, List.take_length, hfront]
  exact hall

end Buffer

/-! ## The two programs -/

/-- The two signature checks agree on what is parsed: neither panics, and both hash
everything but the signature. -/
theorem txSignatureValid_eq_verifyTx (E : Externs) {raw dest : Bytes} {t : Tx}
    (h : Layout raw dest t) : txSignatureValid E raw t = .ok (verifyTx E raw) := by
  have hsource : raw.take 32 = t.source := congrArg Tx.source h.fields.2.2
  have hsig : raw.drop (raw.length - 64) = t.sig := by
    have hlen : raw.length - 64 = txHeaderSize + t.input.length := by
      rw [h.length_raw]
      exact Nat.add_sub_cancel _ _
    rw [hlen, h.bytes]
    refine List.drop_left' ?_
    simp only [List.length_append, h.source, h.destination, length_ofI64, length_ofU32,
      length_ofU16]
  rw [h.txSignatureValid_eq, ← h.take_signed, verifyTx, hsource, hsig,
    Rust.toArray_of_length h.source, Rust.toArray_of_length h.sig]

/-- **The codec.** What `build_tx` leaves in its buffer is parsed to the fields it was given
and verified over what it signed. And `parse_tx` returns on every string: the fields of a
string that is laid out from them and a destination, which are the fields of no other
string with that destination, or nothing when the string has no layout. -/
theorem transaction_codec (E : Externs) (signer : Key) (amount : Int64) (tick : UInt32)
    (inputType : UInt16) (input buf : Bytes) (hinput : input.length ≤ 65535)
    (hroom : txHeaderSize + input.length + signatureSize ≤ buf.length) :
    (let raw := builtTx E buf signer amount tick inputType input
      let signed := signedPart signer amount tick inputType input
      let sig := signer.sign (E.qubicK12 signed)
      let t : Tx := { source := signer.pub.val, destIsZero := true, amount, tick, inputType, input,
                      sig := sig.val }
      raw = signed ++ sig.val ∧ parseTx raw = .ok (some t) ∧
        txSignatureValid E raw t = .ok (E.fourqVerify signer.pub sig (E.qubicK12 signed))) ∧
    (∀ raw t, parseTx raw = .ok (some t) →
      (∃ dest, Layout raw dest t) ∧ raw.length = 144 + t.input.length ∧
        txSignatureValid E raw t = .ok (verifyTx E raw) ∧
          ∀ raw', parseTx raw' = .ok (some t) →
            (raw'.drop 32).take 32 = (raw.drop 32).take 32 → raw' = raw) ∧
    ∀ raw, (∃ t dest, parseTx raw = .ok (some t) ∧ Layout raw dest t) ∨
      parseTx raw = .ok none ∧ ∀ t dest, ¬ Layout raw dest t := by
  have hlt : input.length < 2 ^ 16 := by omega
  refine ⟨?_, ?_, parseTx_total⟩
  · have hlayout := layout_buildTx E signer amount tick inputType hlt
    rw [builtTx_eq E signer amount tick inputType hlt hroom]
    exact ⟨rfl, parseTx_buildTx E signer amount tick inputType hlt, hlayout.txSignatureValid_eq E⟩
  · intro raw t hparse
    obtain ⟨dest, h⟩ := parseTx_eq_some_iff.mp hparse
    refine ⟨⟨dest, h⟩, ?_, txSignatureValid_eq_verifyTx E h, ?_⟩
    · rw [h.length_raw]
      unfold txHeaderSize signatureSize
      omega
    · intro raw' hparse' hdest
      obtain ⟨dest', h'⟩ := parseTx_eq_some_iff.mp hparse'
      -- the destination is the one part of the string that is not among the fields
      rw [h'.fields.2.1, h.fields.2.1] at hdest
      subst hdest
      exact h'.unique h

/-- The theorem for three bytes and an amount below zero, in a buffer that was in use. -/
theorem transaction_codec_demo :
    parseTx (builtTx demoExterns (List.replicate 147 0xff) (demoKey 3) (-1) 1000000 10 [1, 2, 3])
      = .ok (some { source := (demoKey 3).pub.val, destIsZero := true, amount := -1,
                    tick := 1000000,
                    inputType := 10, input := [1, 2, 3], sig := List.replicate 64 0 }) :=
  (transaction_codec demoExterns (demoKey 3) (-1) 1000000 10 [1, 2, 3] (List.replicate 147 0xff)
    (by decide) (by rw [List.length_replicate]; decide)).1.2.1

end ZkQuorum.GenFixture
