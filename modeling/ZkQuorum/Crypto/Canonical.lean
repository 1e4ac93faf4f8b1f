import ZkQuorum.Crypto.Keys

/-!
# Accepted signatures are canonical (crypto/src/riscv_fourq_verify.c)

A signature is R | S. The words of S are compared with those of the curve order, most
significant first (`wordsBelow_iff`). R is compared with the encoding of a point whose
coordinates `eccnorm` has reduced, so no component of its y is p and bit 255 is the sign
of its x. **`accepted_canonical`** collects what that leaves of a signature.
-/

namespace ZkQuorum.Crypto

open Edwards LittleEndian Felm

/-! ## The comparison of the scalar -/

/-- The number that some words spell, most significant first. -/
def wordsValue : List UInt64 → Nat
  | [] => 0
  | w :: ws => w.toNat * 2 ^ (64 * ws.length) + wordsValue ws

theorem wordsValue_lt (ws : List UInt64) : wordsValue ws < 2 ^ (64 * ws.length) := by
  induction ws with
  | nil => exact Nat.one_pos
  | cons w ws ih =>
    have hw := w.toNat_lt
    have hpow : 2 ^ (64 * (w :: ws).length) = 2 ^ 64 * 2 ^ (64 * ws.length) := by
      rw [List.length_cons, Nat.mul_succ, pow_add, Nat.mul_comm]
    have hle : w.toNat * 2 ^ (64 * ws.length) + 2 ^ (64 * ws.length)
        ≤ 2 ^ 64 * 2 ^ (64 * ws.length) := by
      rw [← Nat.succ_mul]
      exact Nat.mul_le_mul_right _ hw
    rw [wordsValue, hpow]
    omega

/-- A smaller first word decides. -/
theorem wordsValue_cons_lt {s r : UInt64} {ss rs : List UInt64} (hlen : ss.length = rs.length)
    (h : s < r) : wordsValue (s :: ss) < wordsValue (r :: rs) := by
  have hss := wordsValue_lt ss
  have hle : s.toNat * 2 ^ (64 * ss.length) + 2 ^ (64 * ss.length)
      ≤ r.toNat * 2 ^ (64 * ss.length) := by
    rw [← Nat.succ_mul]
    exact Nat.mul_le_mul_right _ (UInt64.lt_iff_toNat_lt.mp h)
  rw [wordsValue, wordsValue, ← hlen]
  omega

/-- **The loop compares the numbers.** -/
theorem wordsBelow_iff (ws : List (UInt64 × UInt64)) :
    wordsBelow ws ↔ wordsValue (ws.map Prod.fst) < wordsValue (ws.map Prod.snd) := by
  induction ws with
  | nil => exact ⟨fun h => absurd h Bool.false_ne_true, fun h => absurd h (Nat.lt_irrefl 0)⟩
  | cons w ws ih =>
    obtain ⟨s, r⟩ := w
    have hlen : (ws.map Prod.fst).length = (ws.map Prod.snd).length := by
      rw [List.length_map, List.length_map]
    show wordsBelow ((s, r) :: ws) ↔
      wordsValue (s :: ws.map Prod.fst) < wordsValue (r :: ws.map Prod.snd)
    rw [wordsBelow]
    -- the first words decide, and where they are equal the rest does
    by_cases hlt : s < r
    · rw [if_pos hlt]
      exact ⟨fun _ => wordsValue_cons_lt hlen hlt, fun _ => rfl⟩
    · rw [if_neg hlt]
      by_cases hgt : s > r
      · rw [if_pos hgt]
        have hrs := wordsValue_cons_lt hlen.symm hgt
        exact ⟨fun h => absurd h Bool.false_ne_true, fun h => absurd hrs (Nat.lt_asymm h)⟩
      · rw [if_neg hgt, ih]
        have heq : s = r := by
          rw [gt_iff_lt, UInt64.lt_iff_toNat_lt] at hgt
          rw [UInt64.lt_iff_toNat_lt] at hlt
          apply UInt64.toNat_inj.mp
          omega
        rw [heq, wordsValue, wordsValue, hlen]
        omega

/-- The curve order r. -/
def orderValue : Nat := wordsValue curveOrder.toList.reverse

/-- The scalar S of a signature. -/
def scalarValue (signature : ByteVec 64) : Nat := toNat (signature.val.drop 32)

theorem scalarValue_eq (signature : ByteVec 64) : scalarValue signature
    = wordsValue [load64 signature.val 56, load64 signature.val 48, load64 signature.val 40,
        load64 signature.val 32] := by
  have hlen : signature.val.length = 64 := signature.property
  have hlow : toNat ((signature.val.drop 32).take 16)
      = (load64 signature.val 32).toNat + 2 ^ 64 * (load64 signature.val 40).toNat :=
    toNat_load64_pair (by omega)
  have hhigh : toNat ((signature.val.drop 48).take 16)
      = (load64 signature.val 48).toNat + 2 ^ 64 * (load64 signature.val 56).toNat :=
    toNat_load64_pair (by omega)
  have hlast : (signature.val.drop 48).take 16 = signature.val.drop 48 := by
    apply List.take_of_length_le
    rw [List.length_drop]
    omega
  have hsplit : signature.val.drop 32
      = (signature.val.drop 32).take 16 ++ (signature.val.drop 48).take 16 := by
    have hdrop : signature.val.drop 48 = (signature.val.drop 32).drop 16 := by rw [List.drop_drop]
    rw [hlast, hdrop, List.take_append_drop]
  have hlength : ((signature.val.drop 32).take 16).length = 16 := by
    rw [List.length_take, List.length_drop]
    omega
  rw [scalarValue, hsplit, toNat_append, hlength, hlow, hhigh]
  simp only [wordsValue, List.length_cons, List.length_nil]
  ring

theorem canonicalScalar_iff (signature : ByteVec 64) :
    canonicalScalar signature ↔ scalarValue signature < orderValue := by
  rw [scalarValue_eq]
  exact wordsBelow_iff _

/-! ## The encoding of R -/

/-- The point that `ecc_mul_double` computes is reduced. -/
theorem reduced_of_eccMulDouble {build : Build} {k l : Words4} {A R : PointAffine F2elm}
    (h : eccMulDouble build k l A = some R) : R.x.Reduced ∧ R.y.Reduced := by
  unfold eccMulDouble at h
  dsimp only at h
  split at h
  · cases h
    rw [eccnorm_eq]
    exact ⟨F2elm.reduced_ofFp2 _, F2elm.reduced_ofFp2 _⟩
  · cases h

/-- The component that the sign is read from. -/
def signComponent (x : F2elm) : Felm := if x.c0.value = 0 then x.c1 else x.c0

theorem toNat_signBit (x : F2elm) : (signBit x).toNat = (signComponent x).value / 2 ^ 126 := by
  rw [signBit, signComponent, toNat_signLimb]
  by_cases h : x.c0.value = 0
  · rw [if_pos (isZero_iff.mpr h), if_pos h]
  · rw [if_neg fun hz => h (isZero_iff.mp hz), if_neg h]

theorem signBit_lt (x : F2elm) : (signBit x).toNat < 2 := by
  have hlt := (signComponent x).value_lt
  rw [toNat_signBit]
  omega

/-- The first half of a signature with bit 127 clear. -/
def firstHalf (signature : ByteVec 64) (hbit : bit127 signature = 0) : Encoded :=
  ⟨⟨signature.val.take 32, by
    have hlen : signature.val.length = 64 := signature.property
    rw [List.length_take, hlen]
    rfl⟩, by
    rw [← hbit]
    show (signature.val.take 32).getD 15 0 &&& 0x80 = signature.val.getD 15 0 &&& 0x80
    rw [List.getD_eq_getElem?_getD, List.getD_eq_getElem?_getD,
      List.getElem?_take_of_lt (by decide)]⟩

theorem yComponent_firstHalf (signature : ByteVec 64) (hbit : bit127 signature = 0) {i : Nat}
    (hi : i < 2) :
    yComponent (firstHalf signature hbit).val.val i = yComponent signature.val i := by
  have htake : ((signature.val.take 32).drop (16 * i)).take 16
      = (signature.val.drop (16 * i)).take 16 := by
    rw [List.drop_take, List.take_take, Nat.min_eq_left (by omega)]
  rw [yComponent, yComponent, ← htake]
  rfl

/-- Bit 255 of the signature. -/
theorem toNat_encodedSign_firstHalf (signature : ByteVec 64) (hbit : bit127 signature = 0) :
    (encodedSign (firstHalf signature hbit).val).toNat = (signature.byte 31).toNat / 2 ^ 7 := by
  have hbyte : (firstHalf signature hbit).val.byte 31 = signature.byte 31 := by
    rw [byte_eq_getD, byte_eq_getD]
    show (signature.val.take 32).getD 31 0 = signature.val.getD 31 0
    rw [List.getD_eq_getElem?_getD, List.getD_eq_getElem?_getD,
      List.getElem?_take_of_lt (by decide)]
  rw [encodedSign, UInt8.toNat_toUInt64]
  show ((firstHalf signature hbit).val.byte 31 >>> 7).toNat = (signature.byte 31).toNat / 2 ^ 7
  rw [hbyte]
  exact Nat.shiftRight_eq_div_pow _ _

/-- What an accepted signature is: S below r, and R the encoding of the computed point. -/
theorem spec_of_verify {build : Build} {publicKey messageDigest : ByteVec 32}
    {signature : ByteVec 64} (h : verify build publicKey messageDigest signature) :
    bit127 signature = 0 ∧ scalarValue signature < orderValue ∧
      yComponent signature.val 0 < p1271 ∧ yComponent signature.val 1 < p1271 ∧
      ∃ A R, acceptKey build publicKey = some A ∧
        eccMulDouble build (loadWords signature.val 32)
          (loadWords (challenge publicKey messageDigest signature) 0) A = some R ∧
        R.x.Reduced ∧ R.y.Reduced ∧
        (signature.byte 31).toNat / 2 ^ 7 = (signComponent R.x).value / 2 ^ 126 := by
  obtain ⟨hbit, hscalar, A, hA, R, hR, henc⟩ := verify_iff.mp h
  obtain ⟨hRx, hRy⟩ := reduced_of_eccMulDouble hR
  -- the computed point is reduced, so its encoding can spell no component p
  have hfirst : encodeWith R.y (signBit R.x) = (firstHalf signature hbit).val.val := by
    rw [← encode_eq_encodeWith, henc]
    rfl
  obtain ⟨hy, hsign⟩ := (encodeWith_eq_iff (signBit_lt R.x) _).mp hfirst
  have hvalue := value_decodeY (firstHalf signature hbit)
  rw [← hy, yComponent_firstHalf signature hbit (by decide),
    yComponent_firstHalf signature hbit (by decide)] at hvalue
  refine ⟨hbit, (canonicalScalar_iff signature).mp hscalar, ?_, ?_, A, R, hA, hR, hRx, hRy, ?_⟩
  · rw [← hvalue.1]
    exact hRy.1
  · rw [← hvalue.2]
    exact hRy.2
  · rw [← toNat_encodedSign_firstHalf signature hbit, ← hsign, toNat_signBit]

/-- **Accepted signatures are canonical**: S is below r, bit 127 is clear, no component of y is
p, and bit 255 is the sign of the computed point. So no signature with a larger S, and none with
a component p, is accepted for any key and digest. -/
theorem accepted_canonical {build : Build} {publicKey messageDigest : ByteVec 32}
    {signature : ByteVec 64} (h : verify build publicKey messageDigest signature) :
    (bit127 signature = 0 ∧ scalarValue signature < orderValue ∧
      yComponent signature.val 0 < p1271 ∧ yComponent signature.val 1 < p1271 ∧
      ∃ A R, acceptKey build publicKey = some A ∧
        eccMulDouble build (loadWords signature.val 32)
          (loadWords (challenge publicKey messageDigest signature) 0) A = some R ∧
        R.x.Reduced ∧ R.y.Reduced ∧
        (signature.byte 31).toNat / 2 ^ 7 = (signComponent R.x).value / 2 ^ 126) ∧
    ∀ publicKey' messageDigest' signature',
      (∃ k, scalarValue signature' = scalarValue signature + (k + 1) * orderValue) ∨
        yComponent signature'.val 0 = p1271 ∨ yComponent signature'.val 1 = p1271 →
      verify build publicKey' messageDigest' signature' = false := by
  refine ⟨spec_of_verify h, ?_⟩
  intro publicKey' messageDigest' signature' hother
  rw [← Bool.not_eq_true]
  intro h'
  obtain ⟨-, hscalar, hy0, hy1, -⟩ := spec_of_verify h'
  rcases hother with ⟨k, hk⟩ | hp | hp
  · rw [hk, Nat.succ_mul] at hscalar
    omega
  · omega
  · omega

/-- A signature of the first vector of `schnorrq_vectors.txt`. -/
def samplePublicKey : ByteVec 32 :=
  ⟨[0x75, 0xde, 0xc0, 0x62, 0xc1, 0xa2, 0xb2, 0x54, 0xed, 0xb0, 0xa8, 0x73, 0x41, 0x87, 0xab,
    0x1e, 0x13, 0xa5, 0x08, 0xf9, 0x80, 0x8d, 0xab, 0xe4, 0x89, 0x1a, 0xe1, 0xdc, 0x0c, 0x2c,
    0x6a, 0x0d], rfl⟩

def sampleDigest : ByteVec 32 :=
  ⟨[0x13, 0x07, 0x88, 0x0f, 0x9a, 0x96, 0xd0, 0x14, 0x70, 0x99, 0x65, 0xfa, 0xea, 0x66, 0x6c,
    0x22, 0x9d, 0x5d, 0xb2, 0xb4, 0xb5, 0x96, 0x9d, 0x49, 0x55, 0x04, 0x05, 0x4f, 0xf7, 0xd2,
    0xf0, 0x3e], rfl⟩

def sampleSignature : ByteVec 64 :=
  ⟨[0xa6, 0xdf, 0x32, 0x96, 0xbe, 0x7d, 0x02, 0x10, 0x9e, 0xa9, 0xfa, 0xaf, 0xb0, 0x78, 0xa7,
    0x44, 0xd7, 0x80, 0x96, 0xd2, 0x3c, 0x0d, 0x61, 0x0f, 0x09, 0x07, 0xe6, 0x97, 0xd3, 0x95,
    0x87, 0x48, 0xa8, 0x8a, 0x0f, 0xdb, 0x24, 0xe1, 0xc4, 0x01, 0x0c, 0x79, 0xe5, 0xed, 0x8f,
    0xda, 0x0f, 0xaf, 0xc7, 0x6e, 0xad, 0xbb, 0xa0, 0x56, 0xd9, 0xbb, 0x72, 0xe3, 0xda, 0x90,
    0x3e, 0x12, 0x18, 0x00], rfl⟩

theorem verify_sample : verify .bigint2 samplePublicKey sampleDigest sampleSignature := by
  decide +kernel

/-- The sample is canonical, and the same signature with S + r is refused. -/
theorem accepted_canonical_sample :
    scalarValue sampleSignature < orderValue ∧ ∀ signature',
      scalarValue signature' = scalarValue sampleSignature + (0 + 1) * orderValue →
      verify .bigint2 samplePublicKey sampleDigest signature' = false := by
  have h := accepted_canonical verify_sample
  exact ⟨h.1.2.1, fun signature' hs => h.2 _ _ signature' (.inl ⟨0, hs⟩)⟩

end ZkQuorum.Crypto
