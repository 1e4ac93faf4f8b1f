import ZkQuorum.Crypto.Acceptance

/-!
# The signatures that are accepted under a signer's key (crypto/src/riscv_fourq_verify.c)

A signature is R | S. Under the key of a subseed that is not taken for the neutral point, for
every build and digest:

- `verify_signerKey_iff`: it is accepted when S is below the order, and R is the encoding of the
  multiple of G by S + secret * challenge;
- **`accepted_signatures`**: so there is one accepted signature for each nonce below the order,
  and none can be changed into another one with the same R;
- **`secret_of_two_signatures`**: two with the same R and different challenges give the secret
  scalar away.
-/

namespace ZkQuorum.Crypto

open Edwards LittleEndian Felm

/-! ## Encodings of points -/

/-- The encoding of a point tells it. -/
theorem encode_reduced_inj {A B : CurvePoint} (h : encode (reduced A) = encode (reduced B)) :
    A = B := by
  have hexists : ∀ C : CurvePoint, ∃ b : Encoded, b.val.val = encode (reduced C) ∧
      ∃ a, decode .portable b = some a ∧ a.map F2elm.toFp2 = ⟨C.x, C.y⟩ := by
    intro C
    have hcurve : OnCurve curveD (reduced C).x.toFp2 (reduced C).y.toFp2 := by
      rw [reduced, toFp2_ofFp2, toFp2_ofFp2]
      exact C.on
    have hdecode := exists_decode_encode .portable (F2elm.reduced_ofFp2 C.x)
      (F2elm.reduced_ofFp2 C.y) hcurve
    rwa [map_reduced] at hdecode
  obtain ⟨b, hb, a, hdecode, ha⟩ := hexists A
  obtain ⟨b', hb', a', hdecode', ha'⟩ := hexists B
  obtain rfl : b = b' := Subtype.ext (Subtype.ext (hb.trans (h.trans hb'.symm)))
  cases hdecode.symm.trans hdecode'
  obtain ⟨hx, hy⟩ := PointAffine.mk.inj (ha.symm.trans ha')
  exact Edwards.Point.ext hx hy

/-- A signature is its two halves. -/
theorem signature_ext {signature signature' : ByteVec 64}
    (hpoint : signature.val.take 32 = signature'.val.take 32)
    (hscalar : scalarValue signature = scalarValue signature') : signature = signature' := by
  have hlength : ∀ s : ByteVec 64, (s.val.drop 32).length = 32 := by
    intro s
    have hlen : s.val.length = 64 := s.property
    rw [List.length_drop, hlen]
  have hdrop : signature.val.drop 32 = signature'.val.drop 32 := by
    rw [← ofNat_toNat (hlength signature), ← ofNat_toNat (hlength signature')]
    exact congrArg (ofNat 32) hscalar
  apply Subtype.ext
  rw [← List.take_append_drop 32 signature.val, hpoint, hdrop, List.take_append_drop]

/-- The signature with a given first half and scalar. -/
theorem exists_signature {R : Bytes} (hR : R.length = 32) {S : Nat} (hS : S < orderNat) :
    ∃ signature : ByteVec 64, signature.val.take 32 = R ∧ scalarValue signature = S := by
  have hlen : (R ++ ofNat 32 S).length = 64 := by
    rw [List.length_append, hR, length_ofNat]
  refine ⟨⟨R ++ ofNat 32 S, hlen⟩, List.take_left' hR, ?_⟩
  have hlt : S < 256 ^ 32 := Nat.lt_trans hS (by decide)
  rw [scalarValue, List.drop_left' hR, toNat_ofNat_of_lt hlt]

/-- A linear equation modulo the order has one solution. -/
theorem modEq_iff_of_solution {a b c d s : Nat} (hne : ¬ b ≡ d [MOD orderNat])
    (hs : a + s * b ≡ c + s * d [MOD orderNat]) (x : Nat) :
    a + x * b ≡ c + x * d [MOD orderNat] ↔ x ≡ s [MOD orderNat] := by
  rw [← Int.natCast_modEq_iff, Int.modEq_iff_dvd] at hne hs
  rw [← Int.natCast_modEq_iff, ← Int.natCast_modEq_iff, Int.modEq_iff_dvd, Int.modEq_iff_dvd]
  push_cast at hs ⊢
  -- the difference of the two equations is a product
  have hsplit : (c + x * d - (a + x * b) : Int)
      = (c + s * d - (a + s * b)) - (s - x) * (d - b) := by ring
  rw [hsplit, dvd_sub_right hs]
  constructor
  · intro hproduct
    exact ((Nat.prime_iff_prime_int.mp prime_orderNat).dvd_or_dvd hproduct).resolve_right hne
  · intro hx
    exact Dvd.dvd.mul_right hx _

namespace Stock

/-- **Fixed-base multiplication is exact**: it computes the multiple of G by the scalar, and gives
two scalars one point just when they are equal modulo the order, which is prime. -/
theorem eccMulFixed_exact : orderNat.Prime ∧
    (∀ k : Words4, eccMulFixed k = reduced (Words.value k • basePointG)) ∧
    ∀ k k' : Words4, eccMulFixed k = eccMulFixed k' ↔
      Words.value k ≡ Words.value k' [MOD orderNat] := by
  refine ⟨prime_orderNat, eccMulFixed_eq, fun k k' => ?_⟩
  rw [eccMulFixed_eq, eccMulFixed_eq, ← nsmul_basePoint_inj]
  constructor
  · intro h
    exact encode_reduced_inj (congrArg Crypto.encode h)
  · intro h
    exact congrArg reduced h

/-! ## Nonces -/

section Signer

variable (K : Hash) (subseed messageDigest : ByteVec 32)

/-- The signature has a nonce: R is its multiple of G, and S is the one for it. -/
structure HasNonce (r : Nat) (signature : ByteVec 64) : Prop where
  point : signature.val.take 32 = Crypto.encode (reduced (r • basePointG))
  scalar : scalarValue signature < orderNat
  nonce : scalarValue signature + secretScalar K subseed
      * challengeScalar K (signerKey K subseed) messageDigest signature ≡ r [MOD orderNat]

variable {K subseed messageDigest} {build : Build} {r r' : Nat} {signature signature' : ByteVec 64}

/-- The challenge depends on the first half of a signature. -/
theorem challengeScalar_congr {publicKey : ByteVec 32}
    (h : signature.val.take 32 = signature'.val.take 32) :
    challengeScalar K publicKey messageDigest signature
      = challengeScalar K publicKey messageDigest signature' := by
  rw [challengeScalar, challengeScalar, challengeInput, challengeInput, h]

theorem HasNonce.unique (h : HasNonce K subseed messageDigest r signature)
    (h' : HasNonce K subseed messageDigest r signature') : signature = signature' := by
  have hpoint := h.point.trans h'.point.symm
  have hnonce := h'.nonce
  rw [← challengeScalar_congr hpoint] at hnonce
  have hscalar : scalarValue signature ≡ scalarValue signature' [MOD orderNat] :=
    Nat.ModEq.add_right_cancel' _ (h.nonce.trans hnonce.symm)
  exact signature_ext hpoint (hscalar.eq_of_lt_of_lt h.scalar h'.scalar)

theorem exists_hasNonce (K : Hash) (subseed messageDigest : ByteVec 32) (r : Nat) :
    ∃ signature, HasNonce K subseed messageDigest r signature := by
  have hlen := length_encode (reduced (r • basePointG))
  have hpos := order_bounds.1
  -- the challenge is that of any signature with this first half
  obtain ⟨begun, hbegun, -⟩ := exists_signature hlen hpos
  let c := challengeScalar K (signerKey K subseed) messageDigest begun
  obtain ⟨S, hS, hscalar⟩ : ∃ S < orderNat, S + secretScalar K subseed * c ≡ r [MOD orderNat] := by
    refine ⟨(r + (orderNat - secretScalar K subseed * c % orderNat)) % orderNat,
      Nat.mod_lt _ hpos, ?_⟩
    have hle := Nat.le_of_lt (Nat.mod_lt (secretScalar K subseed * c) hpos)
    calc (r + (orderNat - secretScalar K subseed * c % orderNat)) % orderNat
          + secretScalar K subseed * c
        ≡ r + (orderNat - secretScalar K subseed * c % orderNat)
          + secretScalar K subseed * c % orderNat [MOD orderNat] :=
          Nat.ModEq.add (Nat.mod_modEq _ _) (Nat.mod_modEq _ _).symm
      _ = r + orderNat := by rw [Nat.add_assoc, Nat.sub_add_cancel hle]
      _ ≡ r [MOD orderNat] := Nat.add_mod_right _ _
  obtain ⟨signature, hpoint, hvalue⟩ := exists_signature hlen hS
  refine ⟨signature, hpoint, hvalue ▸ hS, ?_⟩
  rw [hvalue, challengeScalar_congr (hpoint.trans hbegun.symm)]
  exact hscalar

/-- One R has one nonce below the order. -/
theorem HasNonce.nonce_unique (h : HasNonce K subseed messageDigest r signature)
    (hr : r < orderNat) (hr' : r' < orderNat)
    (h' : signature.val.take 32 = Crypto.encode (reduced (r' • basePointG))) : r' = r :=
  (nsmul_basePoint_inj.mp (encode_reduced_inj (h'.symm.trans h.point))).eq_of_lt_of_lt hr' hr

/-! ## Acceptance -/

/-- **The port accepts the signatures with a nonce**, and no others. -/
theorem verify_signerKey_iff (hK : SharesChallenge K)
    (hkey : neutralKey (signerKey K subseed) = false) :
    Crypto.verify build (signerKey K subseed) messageDigest signature ↔
      ∃ r < orderNat, HasNonce K subseed messageDigest r signature := by
  obtain ⟨a, haccept, ha, hlow⟩ := exists_acceptKey_signerKey K subseed build hkey
  have hmul := eccMulDouble_multiple build (loadWords signature.val 32)
    (loadWords (challenge (signerKey K subseed) messageDigest signature) 0) ha hlow
  have hchallenge : Words.value
      (loadWords (challenge (signerKey K subseed) messageDigest signature) 0)
        = challengeScalar K (signerKey K subseed) messageDigest signature := by
    rw [challengeScalar, hK]
  rw [value_scalarWords, hchallenge, ← mul_nsmul, ← add_nsmul] at hmul
  rw [verify_iff, canonicalScalar_iff, orderValue_eq]
  constructor
  · rintro ⟨-, hscalar, a', haccept', R, hR, hencode⟩
    cases haccept.symm.trans haccept'
    cases hmul.symm.trans hR
    have hmod := Nat.mod_modEq (scalarValue signature + secretScalar K subseed
      * challengeScalar K (signerKey K subseed) messageDigest signature) orderNat
    refine ⟨_, Nat.mod_lt _ order_bounds.1, ?_, hscalar, hmod.symm⟩
    rw [nsmul_basePointG_congr hmod]
    exact hencode.symm
  · rintro ⟨r, -, h⟩
    refine ⟨bit127_of_take h.point, h.scalar, a, haccept, _, hmul, ?_⟩
    rw [h.point]
    exact congrArg (fun A => Crypto.encode (reduced A)) (nsmul_basePointG_congr h.nonce)

/-- **The accepted signatures on a digest are one for each nonce.** Each has one nonce below the
order in its R, and for each nonce there is one. -/
theorem accepted_signatures (build : Build) (hK : SharesChallenge K)
    (hkey : neutralKey (signerKey K subseed) = false) (messageDigest : ByteVec 32) :
    (∀ signature, Crypto.verify build (signerKey K subseed) messageDigest signature →
      ∃! r, r < orderNat ∧ signature.val.take 32 = Crypto.encode (reduced (r • basePointG))) ∧
    (∀ r < orderNat, ∃! signature : ByteVec 64,
      signature.val.take 32 = Crypto.encode (reduced (r • basePointG)) ∧
        Crypto.verify build (signerKey K subseed) messageDigest signature) := by
  constructor
  · intro signature h
    obtain ⟨r, hr, hnonce⟩ := (verify_signerKey_iff hK hkey).mp h
    exact ⟨r, ⟨hr, hnonce.point⟩, fun r' ⟨hr', hpoint⟩ => hnonce.nonce_unique hr hr' hpoint⟩
  · intro r hr
    obtain ⟨signature, hnonce⟩ := exists_hasNonce K subseed messageDigest r
    refine ⟨signature, ⟨hnonce.point, (verify_signerKey_iff hK hkey).mpr ⟨r, hr, hnonce⟩⟩, ?_⟩
    rintro signature' ⟨hpoint, h'⟩
    obtain ⟨r', hr', hnonce'⟩ := (verify_signerKey_iff hK hkey).mp h'
    obtain rfl := hnonce'.nonce_unique hr' hr hpoint
    exact hnonce'.unique hnonce

/-- **Two accepted signatures with the same R give the secret away** when their challenges differ:
it is the only solution of their equations. -/
theorem secret_of_two_signatures (build build' : Build) (hK : SharesChallenge K)
    (hkey : neutralKey (signerKey K subseed) = false) {messageDigest' : ByteVec 32}
    (h : Crypto.verify build (signerKey K subseed) messageDigest signature)
    (h' : Crypto.verify build' (signerKey K subseed) messageDigest' signature')
    (hpoint : signature.val.take 32 = signature'.val.take 32)
    (hne : ¬ challengeScalar K (signerKey K subseed) messageDigest signature
      ≡ challengeScalar K (signerKey K subseed) messageDigest' signature' [MOD orderNat])
    (x : Nat) :
    scalarValue signature + x * challengeScalar K (signerKey K subseed) messageDigest signature
        ≡ scalarValue signature'
          + x * challengeScalar K (signerKey K subseed) messageDigest' signature' [MOD orderNat]
      ↔ x ≡ secretScalar K subseed [MOD orderNat] := by
  obtain ⟨r, hr, hnonce⟩ := (verify_signerKey_iff hK hkey).mp h
  obtain ⟨r', hr', hnonce'⟩ := (verify_signerKey_iff hK hkey).mp h'
  obtain rfl := hnonce.nonce_unique hr hr' (hpoint.trans hnonce'.point)
  have hsecret := hnonce.nonce.trans hnonce'.nonce.symm
  exact modEq_iff_of_solution hne hsecret x

end Signer

/-! ## A key -/

theorem zero_lt_blocks : 0 < 4 := by decide

theorem zero_lt_entries : 0 < 64 := by decide

/-- The multiple of G by a number, on pairs of numbers, has these coordinates. -/
def HasCoordinates (n : Nat) (x y : Nat × Nat) : Prop :=
  let P := multipleOf pairOps (entry pairOps ⟨0, zero_lt_blocks⟩ ⟨0, zero_lt_entries⟩) n
  Fits n ∧ P.x = pairOps.fp2mul1271 x P.z ∧ P.y = pairOps.fp2mul1271 y P.z

instance (n : Nat) (x y : Nat × Nat) : Decidable (HasCoordinates n x y) := by
  unfold HasCoordinates
  infer_instance

/-- The point with these coordinates. -/
def pointOfPairs (x y : Nat × Nat) : PointAffine F2elm := ⟨.ofFp2 (ofPair x), .ofFp2 (ofPair y)⟩

theorem reduced_of_coordinates {n : Nat} {x y : Nat × Nat} (h : HasCoordinates n x y) :
    reduced (n • basePointG) = pointOfPairs x y := by
  obtain ⟨hfits, hx, hy⟩ := h
  have hpoint := representsFp2_multipleOf (isPrecompFp2_first 0) hfits
  have hmap : (multipleOf pairOps (entry pairOps 0 0) n).map ofPair
      = multipleOf fp2Ops (entry fp2Ops 0 0) n := by
    rw [map_multipleOf ofPair_hom, ofPair_hom.map_entry]
  rw [← hmap] at hpoint
  have hxe := congrArg ofPair hx
  have hye := congrArg ofPair hy
  rw [ofPair_hom.map_mul] at hxe hye
  have hpx : (n • basePointG).x = ofPair x :=
    mul_right_cancel₀ hpoint.z_ne (hpoint.x.symm.trans hxe)
  have hpy : (n • basePointG).y = ofPair y :=
    mul_right_cancel₀ hpoint.z_ne (hpoint.y.symm.trans hye)
  rw [reduced, hpx, hpy, pointOfPairs]

section Coordinates

variable {K : Hash} {subseed messageDigest : ByteVec 32} {x y : Nat × Nat} {n : Nat}
  {signature : ByteVec 64} {P Q : PointAffine F2elm}

theorem signerKey_of_coordinates (hn : n ≡ secretScalar K subseed [MOD orderNat])
    (h : HasCoordinates n x y) :
    signerKey K subseed = ⟨Crypto.encode (pointOfPairs x y), length_encode _⟩ := by
  have hpoint := reduced_of_coordinates h
  rw [nsmul_basePointG_congr hn] at hpoint
  apply Subtype.ext
  exact (getPublicKey_eq K subseed).trans (congrArg Crypto.encode hpoint)

theorem HasNonce.challenge_eq (h : HasNonce K subseed messageDigest n signature)
    (hpoint : reduced (n • basePointG) = Q)
    (hkey : signerKey K subseed = ⟨Crypto.encode P, length_encode _⟩) :
    challengeScalar K (signerKey K subseed) messageDigest signature
      = Words.value (loadWords
          (K.out64 (Crypto.encode Q ++ Crypto.encode P ++ messageDigest.val)).val 0) := by
  rw [challengeScalar, challengeInput, h.point, hpoint, hkey]

end Coordinates

/-- The subseed of 32 zeros. -/
def zeroSubseed : ByteVec 32 := ⟨List.replicate 32 0, rfl⟩

/-- The point of its key. -/
def zeroPoint : PointAffine F2elm :=
  pointOfPairs (157376635054841123869131682922967120696, 66979001141424741552579919574860482125)
    (1623673581231085239311424161365397716, 47092314925842072642070041130251234755)

/-- G. -/
def pointG : PointAffine F2elm :=
  pointOfPairs (34832242333165934151976439273177494442, 40039530084877881816286215037915002870)
    (18941146186793715734774048165794132615, 146361984425930646555497992424795179868)

theorem reduced_one : reduced (1 • basePointG) = pointG :=
  reduced_of_coordinates (by decide +kernel)

theorem signerKey_zeroSubseed :
    signerKey k12 zeroSubseed = ⟨Crypto.encode zeroPoint, length_encode _⟩ :=
  signerKey_of_coordinates (n := secretScalar k12 zeroSubseed % orderNat) (Nat.mod_modEq _ _)
    (by decide +kernel)

theorem neutralKey_zeroSubseed : neutralKey (signerKey k12 zeroSubseed) = false := by
  rw [signerKey_zeroSubseed]
  decide +kernel

/-- The theorem at this key and a digest. -/
theorem accepted_signatures_zero :
    (∀ signature, Crypto.verify .bigint2 (signerKey k12 zeroSubseed) zeroSubseed signature →
      ∃! r, r < orderNat ∧ signature.val.take 32 = Crypto.encode (reduced (r • basePointG))) ∧
    (∀ r < orderNat, ∃! signature : ByteVec 64,
      signature.val.take 32 = Crypto.encode (reduced (r • basePointG)) ∧
        Crypto.verify .bigint2 (signerKey k12 zeroSubseed) zeroSubseed signature) :=
  accepted_signatures .bigint2 sharesChallenge_k12 neutralKey_zeroSubseed zeroSubseed

/-- A second digest. -/
def oneDigest : ByteVec 32 := ⟨1 :: List.replicate 31 0, rfl⟩

/-- The challenges for R = G under the key. -/
theorem challenges_differ :
    ¬ Words.value (loadWords (k12.out64 (Crypto.encode pointG ++ Crypto.encode zeroPoint
        ++ zeroSubseed.val)).val 0)
      ≡ Words.value (loadWords (k12.out64 (Crypto.encode pointG ++ Crypto.encode zeroPoint
        ++ oneDigest.val)).val 0) [MOD orderNat] := by
  decide +kernel

/-- Signatures on two digests with the nonce 1, and what they tell. -/
theorem secret_of_two_signatures_zero : ∃ signature signature' : ByteVec 64, ∀ x,
    scalarValue signature
          + x * challengeScalar k12 (signerKey k12 zeroSubseed) zeroSubseed signature
        ≡ scalarValue signature'
          + x * challengeScalar k12 (signerKey k12 zeroSubseed) oneDigest signature' [MOD orderNat]
      ↔ x ≡ secretScalar k12 zeroSubseed [MOD orderNat] := by
  obtain ⟨signature, h⟩ := exists_hasNonce k12 zeroSubseed zeroSubseed 1
  obtain ⟨signature', h'⟩ := exists_hasNonce k12 zeroSubseed oneDigest 1
  have hone : 1 < orderNat := by decide
  have hne : ¬ challengeScalar k12 (signerKey k12 zeroSubseed) zeroSubseed signature
      ≡ challengeScalar k12 (signerKey k12 zeroSubseed) oneDigest signature' [MOD orderNat] := by
    rw [h.challenge_eq reduced_one signerKey_zeroSubseed,
      h'.challenge_eq reduced_one signerKey_zeroSubseed]
    exact challenges_differ
  exact ⟨signature, signature', secret_of_two_signatures .bigint2 .portable sharesChallenge_k12
    neutralKey_zeroSubseed
    ((verify_signerKey_iff sharesChallenge_k12 neutralKey_zeroSubseed).mpr ⟨1, hone, h⟩)
    ((verify_signerKey_iff sharesChallenge_k12 neutralKey_zeroSubseed).mpr ⟨1, hone, h'⟩)
    (h.point.trans h'.point.symm) hne⟩

end Stock

end ZkQuorum.Crypto
