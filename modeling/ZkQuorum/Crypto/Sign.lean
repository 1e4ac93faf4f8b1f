import ZkQuorum.Crypto.Stock
import ZkQuorum.Crypto.MulFixed

/-!
# Keys and signatures of the reference (crypto/src/stock_qubic.c)

`getSubseed`, `getPrivateKey`, `getPublicKey` and `sign`, over any hash whose 64-byte output
begins with its 32-byte output. Their calls of `encode` have an output of its own, where it is
the `encode` of the port (`encodePoint_eq`).

- **`getPublicKey_eq`**: a public key is the encoding of the secret scalar times G.
- **`sign_spec`**: a signature is the encoding of the nonce times G and a scalar S below the
  order with S + secret * challenge = nonce modulo the order.
- **`sign_equation`**: so S G + challenge A is the point that the first half encodes, where A is
  the point of the public key.
-/

namespace ZkQuorum.Crypto.Stock

open LittleEndian

/-- `KangarooTwelve` at the two output lengths of the signer. -/
structure Hash where
  out32 : Bytes → ByteVec 32
  out64 : Bytes → ByteVec 64
  /-- A longer output begins with a shorter one. -/
  first : ∀ input, (out64 input).val.take 32 = (out32 input).val

/-- Four words in memory. -/
def storeWords (w : Words4) : Bytes := ofU64 w[0]! ++ ofU64 w[1]! ++ ofU64 w[2]! ++ ofU64 w[3]!

theorem length_storeWords (w : Words4) : (storeWords w).length = 32 := by
  simp only [storeWords, List.length_append, length_ofU64]

/-- `encode` of the reference, to bytes that are not those of the point. -/
theorem bytesAt_encode_apart (P : PointAffine F2elm) {p q : Nat} (h : p + 8 ≤ q ∨ q + 4 ≤ p)
    (m : Memory UInt64) :
    bytesAt (encode p q (storePoint p P m)) q = Crypto.encode P := by
  have hpair : (copy256 (p + 4) q (storePoint p P m)).pair p = (storePoint p P m).pair p := by
    simp (disch := omega) only [copy256, Memory.pair_setPair_of_apart]
  have hx := hpair.trans (pair_storePoint P p m).1
  rw [encode_eq_encodeWith]
  apply bytesAt_encode
  show (((copy256 (p + 4) q (storePoint p P m)).pair p).1 == 0
    && ((copy256 (p + 4) q (storePoint p P m)).pair p).2 == 0) = _
  rw [hx]
  rfl

/-- `encode` as the signer calls it: the point lies in words 0 to 7, the output behind it. -/
def encodePoint (P : PointAffine F2elm) : Bytes :=
  bytesAt (encode 0 8 (storePoint 0 P fun _ => 0)) 8

theorem encodePoint_eq (P : PointAffine F2elm) : encodePoint P = Crypto.encode P :=
  bytesAt_encode_apart P (Or.inl (Nat.le_refl 8)) _

theorem length_encode (P : PointAffine F2elm) : (Crypto.encode P).length = 32 := by
  obtain ⟨b, hb⟩ := exists_encoded P
  rw [← hb]
  exact b.val.property

theorem length_encodePoint (P : PointAffine F2elm) : (encodePoint P).length = 32 := by
  rw [encodePoint_eq, length_encode]

/-! ## The routines -/

section Routines

variable (K : Hash)

/-- `getSubseed`: none is `false`. -/
def getSubseed (seed : ByteVec 55) : Option (ByteVec 32) :=
  if seed.val.all fun c => !(c < 97 || c > 122) then
    some (K.out32 (seed.val.map fun c => c - 97))
  else none

/-- `getPrivateKey`. -/
def getPrivateKey (subseed : ByteVec 32) : ByteVec 32 := K.out32 subseed.val

/-- `getPublicKey`. -/
def getPublicKey (privateKey : ByteVec 32) : ByteVec 32 :=
  let P := eccMulFixed (loadWords privateKey.val 0)
  ⟨encodePoint P, length_encodePoint P⟩

/-- The last lines of `sign`: `r - s`, plus the order on a borrow. -/
def subModOrder (r s : Words4) : Words4 :=
  let (borrow, S) := subWords r s
  if borrow then (addWords S curveOrder).2 else S

/-- `k`. -/
def secret (subseed : ByteVec 32) : ByteVec 64 := K.out64 subseed.val

/-- `r`: the hash of the second half of `k` and the digest. -/
def nonce (subseed messageDigest : ByteVec 32) : ByteVec 64 :=
  K.out64 ((secret K subseed).val.drop 32 ++ messageDigest.val)

/-- The first half of the signature. -/
def noncePoint (subseed messageDigest : ByteVec 32) : Bytes :=
  encodePoint (eccMulFixed (loadWords (nonce K subseed messageDigest).val 0))

/-- `h`. -/
def challengeOf (subseed publicKey messageDigest : ByteVec 32) : ByteVec 64 :=
  K.out64 (noncePoint K subseed messageDigest ++ publicKey.val ++ messageDigest.val)

/-- The second half of the signature. -/
def signatureScalar (subseed publicKey messageDigest : ByteVec 32) : Words4 :=
  let r := modOrder (loadWords (nonce K subseed messageDigest).val 0)
  let h := modOrder (loadWords (challengeOf K subseed publicKey messageDigest).val 0)
  let s := mulModOrder (loadWords (secret K subseed).val 0) h
  subModOrder r s

theorem length_signature (subseed publicKey messageDigest : ByteVec 32) :
    (noncePoint K subseed messageDigest
      ++ storeWords (signatureScalar K subseed publicKey messageDigest)).length = 64 := by
  rw [List.length_append, noncePoint, length_encodePoint, length_storeWords]

/-- `sign`. -/
def sign (subseed publicKey messageDigest : ByteVec 32) : ByteVec 64 :=
  ⟨noncePoint K subseed messageDigest
    ++ storeWords (signatureScalar K subseed publicKey messageDigest),
    length_signature K subseed publicKey messageDigest⟩

end Routines

/-! ## Words and bytes -/

theorem value_loadWords (b : ByteVec 32) : Words.value (loadWords b.val 0) = toNat b.val := by
  rw [toNat_words, Words.value_four]
  show (load64 b.val 0).toNat + (load64 b.val 8).toNat * 2 ^ 64 + (load64 b.val 16).toNat * 2 ^ 128
    + (load64 b.val 24).toNat * 2 ^ 192 = _
  ring

/-- Only the first 32 bytes are read. -/
theorem loadWords_firstBytes (b : ByteVec 64) :
    loadWords (firstBytes b).val 0 = loadWords b.val 0 := by
  have hload : ∀ i, i + 8 ≤ 32 → load64 (firstBytes b).val i = load64 b.val i := by
    intro i hi
    show toU64 (((b.val.take 32).drop i).take 8) = toU64 ((b.val.drop i).take 8)
    rw [List.drop_take, List.take_take, Nat.min_eq_left (by omega)]
  simp only [loadWords, hload 0 (by decide), hload (0 + 8) (by decide), hload (0 + 16) (by decide),
    hload (0 + 24) (by decide)]

theorem toNat_storeWords (w : Words4) : toNat (storeWords w) = Words.value w := by
  simp only [storeWords, toNat_append, toNat_ofU64, List.length_append, length_ofU64]
  rw [Words.value_four]
  norm_num
  ring

theorem value_subModOrder {r s : Words4} (hr : Words.value r < orderNat)
    (hs : Words.value s < orderNat) : Words.value (subModOrder r s) < orderNat ∧
      Words.value (subModOrder r s) + Words.value s ≡ Words.value r [MOD orderNat] := by
  obtain ⟨hpos, hroom⟩ := order_bounds
  have hsub := value_subWords r s
  have hlt := Words.value_four_lt (subWords r s).2
  rcases h : subWords r s with ⟨borrow, S⟩
  rw [h] at hsub hlt
  dsimp only at hsub hlt
  simp only [subModOrder, h]
  cases borrow with
  | false =>
    rw [Bool.toNat_false, Nat.zero_mul, Nat.add_zero] at hsub
    rw [if_neg Bool.false_ne_true, hsub]
    exact ⟨by omega, rfl⟩
  | true =>
    have hadd : Words.value (addWords S curveOrder).2
        + (addWords S curveOrder).1.toNat * 2 ^ 256 = Words.value S + orderNat :=
      value_addWords S curveOrder
    have haddlt := Words.value_four_lt (addWords S curveOrder).2
    have hbit := (addWords S curveOrder).1.toNat_le
    rw [Bool.toNat_true, Nat.one_mul] at hsub
    have hvalue : Words.value (addWords S curveOrder).2 + Words.value s
        = Words.value r + orderNat := by
      omega
    rw [if_pos rfl, hvalue]
    exact ⟨by omega, Nat.add_mod_right _ _⟩

/-! ## Keys -/

section Keys

variable (K : Hash)

/-- The secret scalar. -/
def secretScalar (subseed : ByteVec 32) : Nat := toNat (getPrivateKey K subseed).val

/-- The point of the public key. -/
def publicPoint (subseed : ByteVec 32) : CurvePoint := secretScalar K subseed • basePointG

/-- **A public key is the encoding of the secret scalar times G.** -/
theorem getPublicKey_eq (subseed : ByteVec 32) :
    (getPublicKey (getPrivateKey K subseed)).val
      = Crypto.encode (reduced (publicPoint K subseed)) := by
  rw [getPublicKey, eccMulFixed_eq, value_loadWords]
  exact encodePoint_eq _

/-- The scalar that signs is that of the key. -/
theorem value_secret (subseed : ByteVec 32) :
    Words.value (loadWords (secret K subseed).val 0) = secretScalar K subseed := by
  have hfirst : firstBytes (secret K subseed) = getPrivateKey K subseed :=
    Subtype.ext (K.first subseed.val)
  rw [← loadWords_firstBytes, hfirst, value_loadWords, secretScalar]

end Keys

/-! ## Signatures -/

section Signatures

variable (K : Hash) (subseed publicKey messageDigest : ByteVec 32)

/-- The nonce as a number. -/
def nonceScalar : Nat := Words.value (loadWords (nonce K subseed messageDigest).val 0)

/-- The challenge of a signature, as the verifier computes it. -/
def challengeScalar (signature : ByteVec 64) : Nat :=
  Words.value
    (loadWords (K.out64 (challengeInput publicKey messageDigest signature)).val 0)

theorem take_sign : (sign K subseed publicKey messageDigest).val.take 32
    = noncePoint K subseed messageDigest := by
  apply List.take_left'
  exact length_encodePoint _

theorem scalarValue_sign : scalarValue (sign K subseed publicKey messageDigest)
    = Words.value (signatureScalar K subseed publicKey messageDigest) := by
  have hdrop : (sign K subseed publicKey messageDigest).val.drop 32
      = storeWords (signatureScalar K subseed publicKey messageDigest) :=
    List.drop_left' (length_encodePoint _)
  rw [scalarValue, hdrop, toNat_storeWords]

/-- The challenge that is signed is the one that the verifier computes. -/
theorem challengeScalar_sign :
    challengeScalar K publicKey messageDigest (sign K subseed publicKey messageDigest)
      = Words.value (loadWords (challengeOf K subseed publicKey messageDigest).val 0) := by
  rw [challengeScalar, challengeInput, take_sign]
  rfl

theorem orderValue_eq : orderValue = orderNat := by decide +kernel

/-- **What `sign` computes**, for every key, digest and hash. -/
theorem sign_spec : let signature := sign K subseed publicKey messageDigest
    signature.val.take 32
        = Crypto.encode (reduced (nonceScalar K subseed messageDigest • basePointG)) ∧
      scalarValue signature < orderValue ∧
      scalarValue signature
          + secretScalar K subseed * challengeScalar K publicKey messageDigest signature
        ≡ nonceScalar K subseed messageDigest [MOD orderValue] := by
  have hpos := order_bounds.1
  have hr := value_modOrder (loadWords (nonce K subseed messageDigest).val 0)
  have hh := value_modOrder (loadWords (challengeOf K subseed publicKey messageDigest).val 0)
  have hs := value_mulModOrder (loadWords (secret K subseed).val 0)
    (modOrder (loadWords (challengeOf K subseed publicKey messageDigest).val 0))
  obtain ⟨hlt, hmodEq⟩ := value_subModOrder
    (r := modOrder (loadWords (nonce K subseed messageDigest).val 0))
    (s := mulModOrder (loadWords (secret K subseed).val 0)
      (modOrder (loadWords (challengeOf K subseed publicKey messageDigest).val 0)))
    (by rw [hr]; exact Nat.mod_lt _ hpos) (by rw [hs]; exact Nat.mod_lt _ hpos)
  dsimp only
  rw [take_sign, scalarValue_sign, challengeScalar_sign, orderValue_eq]
  refine ⟨?_, hlt, ?_⟩
  · rw [noncePoint, encodePoint_eq, eccMulFixed_eq]
    rfl
  -- reducing the challenge and the product changes nothing modulo the order
  · rw [hr, hs, hh, value_secret] at hmodEq
    have hproduct : secretScalar K subseed
          * Words.value (loadWords (challengeOf K subseed publicKey messageDigest).val 0)
        ≡ secretScalar K subseed
          * (Words.value (loadWords (challengeOf K subseed publicKey messageDigest).val 0)
            % orderNat)
          % orderNat [MOD orderNat] := by
      refine Nat.ModEq.trans ?_ (Nat.mod_modEq _ _).symm
      exact Nat.ModEq.mul_left _ (Nat.mod_modEq _ _).symm
    exact (Nat.ModEq.add_left _ hproduct).trans (hmodEq.trans (Nat.mod_modEq _ _))

/-- **The signature equation** in the group of the curve: a key is the encoding of a point A, S is
below the order, and R is the encoding of S G + challenge A. -/
theorem sign_equation :
    (getPublicKey (getPrivateKey K subseed)).val
        = Crypto.encode (reduced (publicPoint K subseed)) ∧
      let signature := sign K subseed publicKey messageDigest
      scalarValue signature < orderValue ∧
        signature.val.take 32 = Crypto.encode (reduced (scalarValue signature • basePointG
          + challengeScalar K publicKey messageDigest signature • publicPoint K subseed)) := by
  obtain ⟨hpoint, hlt, hmodEq⟩ := sign_spec K subseed publicKey messageDigest
  dsimp only at hpoint hlt hmodEq ⊢
  refine ⟨getPublicKey_eq K subseed, hlt, ?_⟩
  rw [orderValue_eq] at hmodEq
  rw [hpoint, publicPoint, ← mul_nsmul, ← add_nsmul, nsmul_basePointG_congr hmodEq]

end Signatures

end ZkQuorum.Crypto.Stock
