import ZkQuorum.Crypto.DoubleScalar
import ZkQuorum.Crypto.Sign

/-!
# Signatures and their verification (crypto/src/stock_qubic.c, riscv_fourq_verify.c)

What `verify` answers on the signatures of `sign`, for every seed, digest and build, when both
hash with one function (`SharesChallenge`).

- **`verify_sign`**: the port accepts every signature, except under a key that its test for the
  neutral point takes for it.
- **`verify_sign_stock`**: the reference, which encodes the computed point in place, also rejects
  the signatures whose nonce point has exactly one of x0 and y0 equal to 0, and x0 and x1 of
  different signs.
-/

namespace ZkQuorum.Crypto

open Edwards LittleEndian Felm

/-! ## The key of a signer -/

/-- Only 0 has an order that divides 784: the curve order has no factor 2 or 7. -/
theorem eq_zero_of_order {A : CurvePoint} (horder : orderNat • A = 0) (h : 784 • A = 0) :
    A = 0 := by
  have hdvd := Nat.dvd_gcd (addOrderOf_dvd_of_nsmul_eq_zero h)
    (addOrderOf_dvd_of_nsmul_eq_zero horder)
  have hgcd : Nat.gcd 784 orderNat = 1 := by decide +kernel
  rw [hgcd, Nat.dvd_one] at hdvd
  exact AddMonoid.addOrderOf_eq_one_iff.mp hdvd

/-- A multiple of G other than 0 passes the low-order test. -/
theorem lowOrder_multiple (build : Build) {a : PointAffine F2elm} {A : CurvePoint}
    (ha : a.map F2elm.toFp2 = ⟨A.x, A.y⟩) (horder : orderNat • A = 0) (hne : A ≠ 0) :
    lowOrder build a = false := by
  rw [← Bool.not_eq_true, lowOrder_iff build ha]
  have hdouble : 784 • A = 392 • A + 392 • A := by rw [← add_nsmul]
  rintro (h | h)
  · refine hne (eq_zero_of_order horder ?_)
    rw [hdouble, h, add_zero]
  · refine hne (eq_zero_of_order horder ?_)
    rw [hdouble, h, Point.order2_add_order2]

/-- **`ecc_mul_double` on a point that passes the low-order test.** -/
theorem eccMulDouble_multiple (build : Build) (k l : Words4) {a : PointAffine F2elm} {n : Nat}
    (ha : a.map F2elm.toFp2 = ⟨(n • basePoint 0).x, (n • basePoint 0).y⟩)
    (hlow : lowOrder build a = false) : eccMulDouble build k l a
      = some (reduced (Words.value k • basePoint 0 + Words.value l • n • basePoint 0)) := by
  have haxis : ¬ OnAxis (a.map F2elm.toFp2) := by
    intro haxis
    rw [lowOrder_eq, decide_eq_false_iff_not] at hlow
    exact hlow (cofactorClearing_of_axis haxis)
  have hvalid : eccPointValidate build (pointSetup build.ops a) := by
    refine (validXY_iff build (fun hx => haxis (.inl hx)) fun hy => haxis (.inr hy)).mpr ?_
    rw [← onCurve_iff_residualFp2]
    have hx : a.x.toFp2 = _ := congrArg PointAffine.x ha
    have hy : a.y.toFp2 = _ := congrArg PointAffine.y ha
    rw [hx, hy]
    exact (n • basePoint 0).on
  rw [eccMulDouble, if_pos hvalid,
    (mulDouble_multiple build k l (represents_pointSetup build ha)).eccnorm build]

/-- A signature that begins with an encoding has bit 127 clear. -/
theorem bit127_of_take {signature : ByteVec 64} {P : PointAffine F2elm}
    (h : signature.val.take 32 = encode P) : bit127 signature = 0 := by
  obtain ⟨b, hb⟩ := exists_encoded P
  have hbyte : signature.val.getD 15 0 = b.val.val.getD 15 0 := by
    rw [hb, ← h, List.getD_eq_getElem?_getD, List.getD_eq_getElem?_getD,
      List.getElem?_take_of_lt (by decide)]
  rw [bit127, hbyte]
  exact b.property

namespace Stock

/-- The port and the signer hash the challenge with one function. -/
def SharesChallenge (K : Hash) : Prop := ∀ publicKey messageDigest signature,
  (K.out64 (challengeInput publicKey messageDigest signature)).val
    = challenge publicKey messageDigest signature

theorem neutralKey_encode_zero :
    neutralKey ⟨Crypto.encode (reduced 0), length_encode _⟩ = true := by decide +kernel

section Keys

variable (K : Hash) (subseed : ByteVec 32)

/-- The key of a signer, from its subseed. -/
def signerKey : ByteVec 32 := getPublicKey (getPrivateKey K subseed)

/-- The point of a key that is not taken for the neutral point. -/
theorem publicPoint_ne_zero (h : neutralKey (signerKey K subseed) = false) :
    publicPoint K subseed ≠ 0 := by
  intro hzero
  have hkey : signerKey K subseed = ⟨Crypto.encode (reduced 0), length_encode _⟩ := by
    apply Subtype.ext
    rw [← hzero]
    exact getPublicKey_eq K subseed
  rw [hkey, neutralKey_encode_zero] at h
  cases h

theorem orderNat_nsmul_publicPoint : orderNat • publicPoint K subseed = 0 := by
  rw [publicPoint, nsmul_left_comm]
  exact (congrArg _ orderNat_nsmul_basePoint).trans (nsmul_zero _)

/-- **A signer's key is accepted**, unless it is taken for the neutral point. -/
theorem exists_acceptKey_signerKey (build : Build) (h : neutralKey (signerKey K subseed) = false) :
    ∃ a, acceptKey build (signerKey K subseed) = some a ∧
      a.map F2elm.toFp2 = ⟨(publicPoint K subseed).x, (publicPoint K subseed).y⟩ ∧
      lowOrder build a = false := by
  have hcurve : OnCurve curveD (reduced (publicPoint K subseed)).x.toFp2
      (reduced (publicPoint K subseed)).y.toFp2 := by
    rw [reduced, toFp2_ofFp2, toFp2_ofFp2]
    exact (publicPoint K subseed).on
  obtain ⟨b, hb, a, hdecode, ha⟩ := exists_decode_encode build (F2elm.reduced_ofFp2 _)
    (F2elm.reduced_ofFp2 _) hcurve
  have hkey : signerKey K subseed = b.val := Subtype.ext ((getPublicKey_eq K subseed).trans hb.symm)
  rw [map_reduced] at ha
  have hlow := lowOrder_multiple build ha (orderNat_nsmul_publicPoint K subseed)
    (publicPoint_ne_zero K subseed h)
  rw [hkey] at h ⊢
  exact ⟨a, acceptKey_eq_some_iff.mpr ⟨b.property, h, hdecode, hlow⟩, ha, hlow⟩

end Keys

/-! ## The reference -/

theorem bit127_of_both {publicKey : ByteVec 32} {signature : ByteVec 64}
    (h : bit127 publicKey = 0 ∧ bit127 signature = 0) : bit127 publicKey = 0 :=
  h.1

section Verify

variable (K : Hash) (p : Nat) (m : Memory UInt64) (publicKey messageDigest : ByteVec 32)
  (signature : ByteVec 64)

/-- `verify` of the reference from the decoded key on. The computed point is at address p. -/
def verifyPoint (A : PointAffine F2elm) : Bool :=
  if lowOrder .portable A then false
  else
    let s := loadWords signature.val 32
    let h := loadWords (K.out64 (challengeInput publicKey messageDigest signature)).val 0
    (eccMulDouble .portable s h A).any fun A => comparison p signature (storePoint p A m)

/-- `verify` of the reference. -/
def verify : Bool :=
  if hbit : bit127 publicKey = 0 ∧ bit127 signature = 0 then
    if !canonicalScalar signature then false
    else if neutralKey publicKey then false
    else (decode .portable ⟨publicKey, bit127_of_both hbit⟩).any
      (verifyPoint K p m publicKey messageDigest signature)
  else false

variable {K p m publicKey messageDigest signature} {A R : PointAffine F2elm}

theorem verifyPoint_eq (hlow : lowOrder .portable A = false)
    (hmul : eccMulDouble .portable (loadWords signature.val 32)
      (loadWords (K.out64 (challengeInput publicKey messageDigest signature)).val 0) A = some R) :
    verifyPoint K p m publicKey messageDigest signature A
      = comparison p signature (storePoint p R m) := by
  rw [verifyPoint, hlow, if_neg Bool.false_ne_true]
  simp only [hmul, Option.any_some]

theorem verify_eq (hbit : bit127 publicKey = 0 ∧ bit127 signature = 0)
    (hcanonical : canonicalScalar signature = true) (hneutral : neutralKey publicKey = false)
    (hdecode : decode .portable ⟨publicKey, hbit.1⟩ = some A) :
    verify K p m publicKey messageDigest signature
      = verifyPoint K p m publicKey messageDigest signature A := by
  rw [verify, dif_pos hbit, hcanonical, Bool.not_true, if_neg Bool.false_ne_true, hneutral,
    if_neg Bool.false_ne_true, hdecode, Option.any_some]

theorem verify_of_neutralKey (hneutral : neutralKey publicKey = true) :
    verify K p m publicKey messageDigest signature = false := by
  rw [verify, hneutral]
  split
  · split
    · rfl
    · rfl
  · rfl

end Verify

/-! ## Its signatures -/

section Signatures

variable (K : Hash) (subseed messageDigest : ByteVec 32)

/-- The signature of a signer on a digest. -/
def signerSignature : ByteVec 64 := sign K subseed (signerKey K subseed) messageDigest

theorem value_scalarWords (signature : ByteVec 64) :
    Words.value (loadWords signature.val 32) = scalarValue signature := by
  have hload : ∀ i, load64 signature.val (i + 32) = load64 (signature.val.drop 32) i := by
    intro i
    show toU64 ((signature.val.drop (i + 32)).take 8)
      = toU64 (((signature.val.drop 32).drop i).take 8)
    rw [List.drop_drop, Nat.add_comm]
  have hlength : (signature.val.drop 32).length = 32 := by
    have hlen : signature.val.length = 64 := signature.property
    rw [List.length_drop, hlen]
  have hwords : loadWords signature.val 32 = loadWords (signature.val.drop 32) 0 := by
    simp only [loadWords, ← hload]
  rw [hwords]
  exact value_loadWords ⟨signature.val.drop 32, hlength⟩

theorem bit127_sign (publicKey : ByteVec 32) :
    bit127 (sign K subseed publicKey messageDigest) = 0 :=
  bit127_of_take (sign_spec K subseed publicKey messageDigest).1

/-- The nonce point of a signature. -/
def signedPoint : PointAffine F2elm := reduced (nonceScalar K subseed messageDigest • basePointG)

/-- What `ecc_mul_double` computes on a signature. -/
theorem eccMulDouble_sign (build : Build) {a : PointAffine F2elm}
    (ha : a.map F2elm.toFp2 = ⟨(publicPoint K subseed).x, (publicPoint K subseed).y⟩)
    (hlow : lowOrder build a = false) :
    eccMulDouble build (loadWords (signerSignature K subseed messageDigest).val 32)
        (loadWords (K.out64 (challengeInput (signerKey K subseed) messageDigest
          (signerSignature K subseed messageDigest))).val 0) a
      = some (signedPoint K subseed messageDigest) := by
  obtain ⟨-, -, hmodEq⟩ := sign_spec K subseed (signerKey K subseed) messageDigest
  rw [orderValue_eq] at hmodEq
  rw [eccMulDouble_multiple build _ _ ha hlow, value_scalarWords, ← mul_nsmul, ← add_nsmul]
  exact congrArg (fun A => some (reduced A)) (nsmul_basePointG_congr hmodEq)

/-- What the first half of a signature encodes. -/
theorem take_signerSignature : (signerSignature K subseed messageDigest).val.take 32
    = Crypto.encode (signedPoint K subseed messageDigest) :=
  (sign_spec K subseed (signerKey K subseed) messageDigest).1

theorem bit126_lt (a : Felm) : bit126 a < 2 := by
  have hlt := a.value_lt
  rw [bit126]
  omega

theorem inPlaceSign_lt (R : PointAffine F2elm) : (inPlaceSign R).toNat < 2 := by
  rw [(toNat_signs R).2]
  split
  · exact bit126_lt _
  · exact bit126_lt _

theorem canonicalScalar_sign : canonicalScalar (signerSignature K subseed messageDigest) :=
  (canonicalScalar_iff _).mpr (sign_spec K subseed (signerKey K subseed) messageDigest).2.1

/-- **The port accepts a signer's signatures**, exactly when it does not take the key for the
neutral point. -/
theorem verify_sign (build : Build) (hK : SharesChallenge K) :
    Crypto.verify build (signerKey K subseed) messageDigest
        (signerSignature K subseed messageDigest)
      = !neutralKey (signerKey K subseed) := by
  cases h : neutralKey (signerKey K subseed) with
  | true =>
    rw [Bool.not_true, ← Bool.not_eq_true, verify_iff]
    rintro ⟨-, -, a, haccept, -⟩
    obtain ⟨-, hneutral, -⟩ := acceptKey_eq_some_iff.mp haccept
    rw [h] at hneutral
    cases hneutral
  | false =>
    obtain ⟨a, haccept, ha, hlow⟩ := exists_acceptKey_signerKey K subseed build h
    rw [Bool.not_false, verify_iff]
    have hmul := eccMulDouble_sign K subseed messageDigest build ha hlow
    rw [hK] at hmul
    exact ⟨bit127_sign K subseed messageDigest _, canonicalScalar_sign K subseed messageDigest, a,
      haccept, _, hmul, (take_signerSignature K subseed messageDigest).symm⟩

/-- The sign that the reference writes in place is that of the point. -/
def KeepsSign (R : PointAffine F2elm) : Prop :=
  (R.x.c0.value = 0 ↔ R.y.c0.value = 0) ∨ bit126 R.x.c0 = bit126 R.x.c1

theorem keepsSign_iff (R : PointAffine F2elm) : KeepsSign R ↔ inPlaceSign R = signBit R.x := by
  obtain ⟨hport, hstock⟩ := toNat_signs R
  rw [← UInt64.toNat_inj, hport, hstock, KeepsSign]
  by_cases hx : R.x.c0.value = 0
  · by_cases hy : R.y.c0.value = 0
    · simp only [hx, hy, if_true, true_or]
    · simp only [hx, hy, if_true, if_false, true_iff, false_or]
  · by_cases hy : R.y.c0.value = 0
    · simp only [hx, hy, if_true, if_false, false_iff, not_true, false_or, eq_comm]
    · simp only [hx, hy, if_false, true_or]

/-- The comparison of the reference on the signature of a nonce point. -/
theorem comparison_signedPoint (p : Nat) (m : Memory UInt64) :
    comparison p (signerSignature K subseed messageDigest)
        (storePoint p (signedPoint K subseed messageDigest) m)
      ↔ KeepsSign (signedPoint K subseed messageDigest) := by
  have hport : encodeWith (signedPoint K subseed messageDigest).y
        (signBit (signedPoint K subseed messageDigest).x)
      = (signerSignature K subseed messageDigest).val.take 32 := by
    rw [← encode_eq_encodeWith, take_signerSignature]
  have hsign := (beq_encodeWith_iff (signBit_lt _) _).mp (beq_iff_eq.mpr hport)
  rw [comparison_eq, beq_encodeWith_iff (inPlaceSign_lt _), keepsSign_iff, hsign.2]
  exact and_iff_right hsign.1

/-- **The reference accepts a signer's signatures**, exactly when it also keeps the sign of the
nonce point. -/
theorem verify_sign_stock (p : Nat) (m : Memory UInt64) :
    Stock.verify K p m (signerKey K subseed) messageDigest (signerSignature K subseed messageDigest)
      ↔ neutralKey (signerKey K subseed) = false ∧
        KeepsSign (signedPoint K subseed messageDigest) := by
  cases h : neutralKey (signerKey K subseed) with
  | true =>
    rw [verify_of_neutralKey h]
    simp only [Bool.false_eq_true, Bool.true_eq_false, false_and]
  | false =>
    obtain ⟨a, haccept, ha, hlow⟩ := exists_acceptKey_signerKey K subseed .portable h
    obtain ⟨hbit, -, hdecode, -⟩ := acceptKey_eq_some_iff.mp haccept
    have hmul := eccMulDouble_sign K subseed messageDigest .portable ha hlow
    have hcanonical := canonicalScalar_sign K subseed messageDigest
    have hsig : bit127 (signerSignature K subseed messageDigest) = 0 :=
      bit127_sign K subseed messageDigest _
    rw [verify_eq ⟨hbit, hsig⟩ hcanonical h hdecode, verifyPoint_eq hlow hmul,
      comparison_signedPoint, eq_self_iff_true, true_and]

/-- **Both verifiers on a signer's signatures.** -/
theorem signer_verdicts (hK : SharesChallenge K) (build : Build) (p : Nat) (m : Memory UInt64) :
    (Crypto.verify build (signerKey K subseed) messageDigest
        (signerSignature K subseed messageDigest) ↔ neutralKey (signerKey K subseed) = false) ∧
    (Stock.verify K p m (signerKey K subseed) messageDigest
        (signerSignature K subseed messageDigest) ↔ neutralKey (signerKey K subseed) = false ∧
          KeepsSign (signedPoint K subseed messageDigest)) := by
  refine ⟨?_, verify_sign_stock K subseed messageDigest p m⟩
  rw [verify_sign K subseed messageDigest build hK, Bool.not_eq_true']

end Signatures

/-! ## The hash of the port -/

theorem toNat_length_le (input : Bytes) : (UInt32.ofNat input.length).toNat ≤ input.length := by
  rw [UInt32.toNat_ofNat']
  exact Nat.mod_le _ _

theorem length_kangarooTwelve (queueNode : KangarooTwelveF) (input : Bytes) (inputByteLen : UInt32)
    (hlen : inputByteLen.toNat ≤ input.length) {n : Nat} (hn : n ≤ 200) :
    (kangarooTwelve queueNode input inputByteLen hlen n).length = n := by
  rw [kangarooTwelve, output, List.length_take, Keccak.length_bytes]
  exact Nat.min_eq_left hn

/-- `KangarooTwelve` on the whole of a string, with an empty queue node. -/
def k12Bytes (input : Bytes) (n : Nat) : Bytes :=
  kangarooTwelve .zero input (UInt32.ofNat input.length) (toNat_length_le input) n

/-- The port's `KangarooTwelve` as the hash of the signer. -/
def k12 : Hash where
  out32 input := ⟨k12Bytes input 32, length_kangarooTwelve _ _ _ _ (by decide)⟩
  out64 input := ⟨k12Bytes input 64, length_kangarooTwelve _ _ _ _ (by decide)⟩
  first input := by
    show (k12Bytes input 64).take 32 = k12Bytes input 32
    simp only [k12Bytes, kangarooTwelve, output, List.take_take]
    rfl

theorem kangarooTwelve_congr (queueNode : KangarooTwelveF) (input : Bytes) {l l' : UInt32}
    (hl : l.toNat ≤ input.length) (h : l = l') (n : Nat) :
    kangarooTwelve queueNode input l hl n = kangarooTwelve queueNode input l' (h ▸ hl) n := by
  subst h
  rfl

theorem sharesChallenge_k12 : SharesChallenge k12 := by
  intro publicKey messageDigest signature
  have hlength := length_challengeInput publicKey messageDigest signature
  exact kangarooTwelve_congr .zero _ (toNat_length_le _) (by rw [hlength]; rfl) 64

/-- The theorem for the hash of the port and one seed. -/
theorem signer_verdicts_zero :
    (Crypto.verify .bigint2 (signerKey k12 (ByteVec.zero 32)) (ByteVec.zero 32)
        (signerSignature k12 (ByteVec.zero 32) (ByteVec.zero 32))
      ↔ neutralKey (signerKey k12 (ByteVec.zero 32)) = false) ∧
    (Stock.verify k12 0 (fun _ => 0) (signerKey k12 (ByteVec.zero 32)) (ByteVec.zero 32)
        (signerSignature k12 (ByteVec.zero 32) (ByteVec.zero 32))
      ↔ neutralKey (signerKey k12 (ByteVec.zero 32)) = false ∧
          KeepsSign (signedPoint k12 (ByteVec.zero 32) (ByteVec.zero 32))) :=
  signer_verdicts k12 (ByteVec.zero 32) (ByteVec.zero 32) sharesChallenge_k12 .bigint2 0 _
/-- **The two multiplications agree**: `ecc_mul_double` of the verifier, on the keys that
`ecc_mul_fixed` of the signer makes. -/
theorem eccMulDouble_eccMulFixed (build : Build) {k l n m : Words4}
    (hn : ¬ Words.value n ≡ 0 [MOD orderNat])
    (hm : Words.value m ≡ Words.value k + Words.value l * Words.value n [MOD orderNat]) :
    eccMulDouble build k l (eccMulFixed n) = some (eccMulFixed m) := by
  have hpoint : (eccMulFixed n).map F2elm.toFp2
      = ⟨(Words.value n • basePoint 0).x, (Words.value n • basePoint 0).y⟩ := by
    rw [eccMulFixed_eq]
    exact map_reduced _
  have horder : orderNat • Words.value n • basePoint 0 = 0 := by
    rw [nsmul_left_comm, orderNat_nsmul_basePoint, nsmul_zero]
  have hne : Words.value n • basePoint 0 ≠ 0 := by
    intro hzero
    apply hn
    rw [← nsmul_basePoint_inj, hzero, zero_nsmul]
  have hlow := lowOrder_multiple build hpoint horder hne
  rw [eccMulDouble_multiple build k l hpoint hlow, ← mul_nsmul, ← add_nsmul, Nat.mul_comm,
    eccMulFixed_eq m]
  exact congrArg (fun A => some (reduced A)) (nsmul_basePoint_congr hm.symm)

/-- The theorem at 1 + 1 * 1. -/
theorem eccMulDouble_eccMulFixed_two :
    eccMulDouble .bigint2 #v[1, 0, 0, 0] #v[1, 0, 0, 0] (eccMulFixed #v[1, 0, 0, 0])
      = some (eccMulFixed #v[2, 0, 0, 0]) :=
  eccMulDouble_eccMulFixed .bigint2 (by decide +kernel) (by decide +kernel)

end Stock

end ZkQuorum.Crypto
