import ZkQuorum.Crypto.Canonical
import ZkQuorum.Lib.Memory

/-!
# The final comparison of the reference (crypto/src/stock_qubic.c)

`encode` of the reference stores y before it tests whether x0 is 0, and `verify` hands it
the point itself as the output. What it tests is then y0, which has overwritten x0. The
port has an array of its own for the output.

**`comparison_eq_iff`** says when the two comparisons agree: the two differ where exactly
one of x0 and y0 is 0 and x0 and x1 have different signs, on signatures that spell y.
-/

namespace ZkQuorum.Crypto.Stock

open LittleEndian Memory

/-! ## The reference -/

/-- A load of 256 bits and a store of them. -/
def copy256 (p q : Nat) (m : Memory UInt64) : Memory UInt64 :=
  (m.setPair q (m.pair p)).setPair (q + 2) (m.pair (p + 2))

/-- `encode` of the reference, with the word addresses of the point and of the output. -/
def encode (P Pencoded : Nat) (m : Memory UInt64) : Memory UInt64 :=
  let temp1 := (m (P + 3) &&& 0x4000000000000000) <<< 1
  let temp2 := (m (P + 1) &&& 0x4000000000000000) <<< 1
  let m := copy256 (P + 4) Pencoded m
  if m P == 0 && m (P + 1) == 0 then m.set (Pencoded + 3) (m (Pencoded + 3) ||| temp1)
  else m.set (Pencoded + 3) (m (Pencoded + 3) ||| temp2)

/-- The 32 bytes at an address. -/
def bytesAt (m : Memory UInt64) (p : Nat) : Bytes :=
  ofU64 (m p) ++ ofU64 (m (p + 1)) ++ ofU64 (m (p + 2)) ++ ofU64 (m (p + 3))

/-- `encode(A, (unsigned char*)A); return memcmp(A, signature, 32) == 0;`. -/
def comparison (A : Nat) (signature : ByteVec 64) (m : Memory UInt64) : Bool :=
  let m := encode A A m
  bytesAt m A == signature.val.take 32

/-- A point in memory: x, then y. -/
def storePoint (p : Nat) (P : PointAffine F2elm) (m : Memory UInt64) : Memory UInt64 :=
  (((m.setPair p P.x.c0.limbs).setPair (p + 2) P.x.c1.limbs).setPair (p + 4)
    P.y.c0.limbs).setPair (p + 6) P.y.c1.limbs

section Encode

variable (P : PointAffine F2elm) (p q : Nat) (m : Memory UInt64)

theorem pair_storePoint : (storePoint p P m).pair p = P.x.c0.limbs ∧
    (storePoint p P m).pair (p + 2) = P.x.c1.limbs ∧
    (storePoint p P m).pair (p + 4) = P.y.c0.limbs ∧
    (storePoint p P m).pair (p + 6) = P.y.c1.limbs := by
  refine ⟨?_, ?_, ?_, ?_⟩
  all_goals simp (disch := omega) only [storePoint, pair_setPair, pair_setPair_of_apart]

theorem pair_copy256 : (copy256 p q m).pair q = m.pair p ∧
    (copy256 p q m).pair (q + 2) = m.pair (p + 2) := by
  refine ⟨?_, ?_⟩
  all_goals simp (disch := omega) only [copy256, pair_setPair, pair_setPair_of_apart]

/-- A word or-ed to the last of four. -/
theorem bytesAt_set_last (w : UInt64) : bytesAt (m.set (q + 3) (m (q + 3) ||| w)) q
    = ofU64 (m.pair q).1 ++ ofU64 (m.pair q).2 ++ ofU64 (m.pair (q + 2)).1
      ++ ofU64 ((m.pair (q + 2)).2 ||| w) := by
  rw [bytesAt, set_same, set_ne _ _ (by omega), set_ne _ _ (by omega), set_ne _ _ (by omega)]
  rfl

/-- What the reference writes to its output, by what its test sees after the copy. -/
theorem bytesAt_encode {zero : Bool}
    (hzero : let copied := copy256 (p + 4) q (storePoint p P m)
      (copied p == 0 && copied (p + 1) == 0) = zero) :
    bytesAt (encode p q (storePoint p P m)) q
      = encodeWith P.y ((if zero then P.x.c1 else P.x.c0).limbs.2 >>> 62) := by
  obtain ⟨hx0, hx1, hy0, hy1⟩ := pair_storePoint P p m
  obtain ⟨hc0, hc1⟩ := pair_copy256 (p + 4) q (storePoint p P m)
  have hbit0 : storePoint p P m (p + 1) = P.x.c0.limbs.2 := congrArg Prod.snd hx0
  have hbit1 : storePoint p P m (p + 3) = P.x.c1.limbs.2 := congrArg Prod.snd hx1
  rw [encodeWith, ← hy0, ← hy1, ← hc0, ← hc1]
  dsimp only at hzero
  simp only [encode, hzero, hbit0, hbit1, moveBit]
  cases zero with
  | true => exact bytesAt_set_last q _ _
  | false => exact bytesAt_set_last q _ _

/-- The sign that the reference encodes in place of the point: y0 decides which component. -/
def inPlaceSign (P : PointAffine F2elm) : UInt64 :=
  (if P.y.c0.isZero then P.x.c1 else P.x.c0).limbs.2 >>> 62

/-- **What the reference leaves in place of the point.** -/
theorem bytesAt_encode_in_place :
    bytesAt (encode p p (storePoint p P m)) p = encodeWith P.y (inPlaceSign P) := by
  apply bytesAt_encode
  obtain ⟨hc, -⟩ := pair_copy256 (p + 4) p (storePoint p P m)
  obtain ⟨-, -, hy, -⟩ := pair_storePoint P p m
  have h := hc.trans hy
  show (((copy256 (p + 4) p (storePoint p P m)).pair p).1 == 0
    && ((copy256 (p + 4) p (storePoint p P m)).pair p).2 == 0) = _
  rw [h]
  rfl

end Encode

/-! ## The two comparisons -/

/-- Bit 126 of a field element. -/
def bit126 (a : Felm) : Nat := a.value / 2 ^ 126

/-- The low 255 bits of the first half of the signature are those of y. -/
def SignatureSpells (y : F2elm) (signature : ByteVec 64) : Prop :=
  toNat (signature.val.take 32) % 2 ^ 255 = y.c0.value + 2 ^ 128 * y.c1.value

theorem length_firstBytes (signature : ByteVec 64) : (signature.val.take 32).length = 32 := by
  have hlen : signature.val.length = 64 := signature.property
  rw [List.length_take, hlen]
  rfl

/-- The first 32 bytes of a signature. -/
def firstBytes (signature : ByteVec 64) : ByteVec 32 :=
  ⟨signature.val.take 32, length_firstBytes signature⟩

theorem toNat_words (b : ByteVec 32) : toNat b.val = (load64 b.val 0).toNat
    + 2 ^ 64 * (load64 b.val 8).toNat + 2 ^ 128 * (load64 b.val 16).toNat
    + 2 ^ 192 * (load64 b.val 24).toNat := by
  have hwords := congrArg toNat (bytes_eq_words b)
  simp only [toNat_append, toNat_ofU64, length_ofU64, List.length_append] at hwords
  rw [hwords]
  norm_num

theorem spellsY_firstBytes (y : F2elm) (signature : ByteVec 64) :
    SpellsY y (firstBytes signature) ↔ SignatureSpells y signature := by
  have hwords := toNat_words (firstBytes signature)
  have h0 := (load64 (firstBytes signature).val 0).toNat_lt
  have h8 := (load64 (firstBytes signature).val 8).toNat_lt
  have h16 := (load64 (firstBytes signature).val 16).toNat_lt
  have hmask := toNat_and_low63 (load64 (firstBytes signature).val 24)
  have hl0 := y.c0.limbs.1.toNat_lt
  have hl1 := y.c0.limbs.2.toNat_lt
  have hl2 := y.c1.limbs.1.toNat_lt
  have hl3 := high_lt y.c1.le
  rw [SpellsY, Prod.ext_iff, Prod.ext_iff, ← UInt64.toNat_inj, ← UInt64.toNat_inj,
    ← UInt64.toNat_inj, ← UInt64.toNat_inj, SignatureSpells, Felm.value, Felm.value,
    Limbs.value_eq, Limbs.value_eq]
  show _ ↔ toNat (firstBytes signature).val % 2 ^ 255 = _
  rw [hwords]
  dsimp only
  rw [hmask]
  omega

/-- The answer of the reference. -/
theorem comparison_eq (A : PointAffine F2elm) (p : Nat) (signature : ByteVec 64)
    (m : Memory UInt64) : comparison p signature (storePoint p A m)
      = (encodeWith A.y (inPlaceSign A) == signature.val.take 32) := by
  rw [comparison, ← bytesAt_encode_in_place A p m]

theorem beq_encodeWith_iff {y : F2elm} {sign : UInt64} (hs : sign.toNat < 2)
    (signature : ByteVec 64) : (encodeWith y sign == signature.val.take 32) ↔
      SignatureSpells y signature ∧ sign = encodedSign (firstBytes signature) := by
  rw [beq_iff_eq, ← spellsY_firstBytes]
  exact encodeWith_eq_iff_spellsY hs (firstBytes signature)

/-- Two encodings of one y agree on a signature when they have one sign, or the signature does
not spell y. -/
theorem beq_encodeWith_eq_iff {y : F2elm} {s t : UInt64} (hs : s.toNat < 2) (ht : t.toNat < 2)
    (signature : ByteVec 64) :
    ((encodeWith y s == signature.val.take 32) = (encodeWith y t == signature.val.take 32)) ↔
      s.toNat = t.toNat ∨ ¬ SignatureSpells y signature := by
  have hbit := encodedSign_lt (firstBytes signature)
  rw [Bool.eq_iff_iff, beq_encodeWith_iff hs, beq_encodeWith_iff ht, ← UInt64.toNat_inj,
    ← UInt64.toNat_inj]
  by_cases hspells : SignatureSpells y signature
  · simp only [hspells, true_and, not_true, or_false]
    omega
  · simp only [hspells, false_and, not_false_iff, or_true]

/-- The sign bits as bits of the components. -/
theorem toNat_signs (A : PointAffine F2elm) :
    (signBit A.x).toNat = (if A.x.c0.value = 0 then bit126 A.x.c1 else bit126 A.x.c0) ∧
      (inPlaceSign A).toNat = if A.y.c0.value = 0 then bit126 A.x.c1 else bit126 A.x.c0 := by
  have hsign : ∀ r : Felm, (r.limbs.2 >>> 62).toNat = bit126 r := toNat_signLimb
  constructor
  · rw [toNat_signBit, signComponent, ← apply_ite bit126]
    rfl
  · rw [inPlaceSign, hsign]
    by_cases h : A.y.c0.value = 0
    · rw [if_pos (Felm.isZero_iff.mpr h), if_pos h]
    · rw [if_neg fun hz => h (Felm.isZero_iff.mp hz), if_neg h]

/-- **When the port and the reference give the same answer**: x0 and y0 are zero together, or
x0 and x1 have one sign, or the signature does not spell y. -/
theorem comparison_eq_iff (A : PointAffine F2elm) (p : Nat) (signature : ByteVec 64)
    (m : Memory UInt64) :
    (Crypto.encode A == signature.val.take 32) = comparison p signature (storePoint p A m) ↔
      (A.x.c0.value = 0 ↔ A.y.c0.value = 0) ∨ bit126 A.x.c0 = bit126 A.x.c1 ∨
        ¬ SignatureSpells A.y signature := by
  obtain ⟨hport, hstock⟩ := toNat_signs A
  have hlt0 := A.x.c0.value_lt
  have hlt1 := A.x.c1.value_lt
  have hbit0 : bit126 A.x.c0 < 2 := by
    unfold bit126
    omega
  have hbit1 : bit126 A.x.c1 < 2 := by
    unfold bit126
    omega
  have hstock_lt : (inPlaceSign A).toNat < 2 := by
    rw [hstock]
    split
    · exact hbit1
    · exact hbit0
  rw [comparison_eq, encode_eq_encodeWith, beq_encodeWith_eq_iff (signBit_lt A.x) hstock_lt, hport,
    hstock, ← or_assoc]
  apply or_congr_left
  -- the port takes the sign of x1 where x0 is zero, the reference where y0 is
  by_cases hx : A.x.c0.value = 0
  · by_cases hy : A.y.c0.value = 0
    · simp [hx, hy]
    · simp [hx, hy, eq_comm]
  · by_cases hy : A.y.c0.value = 0
    · simp [hx, hy]
    · simp [hx, hy]

/-- A point with y = 8 i, whose x0 and x1 have different signs. -/
def splitPoint : CurvePoint where
  x := ⟨0x4545190b1b00bc966d15562381df92c9, 0x1a7deb9de3f951bd6164e0f3549a83d7⟩
  y := ⟨0, 8⟩
  on := by
    rw [onCurve_iff_residualFp2]
    decide +kernel

/-- A signature whose first half is the encoding of the point. -/
def splitSignature : ByteVec 64 :=
  ⟨List.replicate 16 0 ++ 8 :: List.replicate 14 0 ++ 0x80 :: List.replicate 32 0, rfl⟩

/-- On this point and this signature the port answers `TRUE` and the reference `FALSE`. -/
theorem comparison_split :
    (Crypto.encode (reduced splitPoint) == splitSignature.val.take 32) = true ∧
      comparison 0 splitSignature (storePoint 0 (reduced splitPoint) fun _ => 0) = false := by
  decide +kernel

end ZkQuorum.Crypto.Stock
