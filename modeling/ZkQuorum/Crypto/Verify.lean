import ZkQuorum.Crypto.Decode
import ZkQuorum.Crypto.KangarooTwelve
import ZkQuorum.Crypto.MulDouble

/-!
# Signature verification (crypto/src/riscv_fourq_verify.c)

`verify` with its checks in the order of the source: bit 127 of the key and of the
signature, the scalar below the curve order, the neutral key, `decode`, the low-order
test, and the equation on the encoded point.
-/

namespace ZkQuorum.Crypto

/-- `ecc_mul_double`: none is `FALSE`. -/
def eccMulDouble (build : Build) (k l : Words4) (Q : PointAffine F2elm) :
    Option (PointAffine F2elm) :=
  let Q1 := pointSetup build.ops Q
  if eccPointValidate build Q1 then some (eccnorm build (mulDouble build.ops k l Q1)) else none

/-- `curve_order`. -/
def curveOrder : Words4 :=
  #v[0x2FB2540EC7768CE7, 0xDFBD004DFE0F7999, 0xF05397829CBC14E5, 0x0029CBC14E5E0A72]

/-- The loop that compares the words of two numbers, most significant first. -/
def wordsBelow : List (UInt64 × UInt64) → Bool
  | [] => false
  | (s, r) :: rest => if s < r then true else if s > r then false else wordsBelow rest

/-- Four words at an offset. -/
def loadWords (b : Bytes) (i : Nat) : Words4 :=
  #v[load64 b i, load64 b (i + 8), load64 b (i + 16), load64 b (i + 24)]

/-- The scalar of the signature is below the curve order. -/
def canonicalScalar (signature : ByteVec 64) : Bool :=
  let s := loadWords signature.val 32
  let r := curveOrder
  wordsBelow [(s[3], r[3]), (s[2], r[2]), (s[1], r[1]), (s[0], r[0])]

/-- The key is rejected as the neutral point. The first word is not inspected. -/
def neutralKey (publicKey : ByteVec 32) : Bool :=
  let pk := loadWords publicKey.val 0
  pk[1] == 0 && pk[2] == 0 && pk[3] &&& 0x7FFFFFFFFFFFFFFF == 0

/-- 392 A is the neutral point, or has the same X. -/
def lowOrder (build : Build) (A : PointAffine F2elm) : Bool :=
  let R := cofactorClearing build.ops (pointSetup build.ops A)
  let x0 := mod1271 R.x.c0
  let x1 := mod1271 R.x.c1
  x0.limbs.1 ||| x0.limbs.2 ||| x1.limbs.1 ||| x1.limbs.2 == 0

/-- The hashed string: R, the key and the digest. -/
def challengeInput (publicKey messageDigest : ByteVec 32) (signature : ByteVec 64) : Bytes :=
  signature.val.take 32 ++ publicKey.val ++ messageDigest.val

theorem length_challengeInput (publicKey messageDigest : ByteVec 32) (signature : ByteVec 64) :
    (challengeInput publicKey messageDigest signature).length = 96 := by
  have hs := signature.property
  have hpk := publicKey.property
  have hd := messageDigest.property
  rw [challengeInput, List.length_append, List.length_append, List.length_take, hs, hpk, hd]
  rfl

/-- `h`. The input is one chunk, so that no queue node is read. -/
def challenge (publicKey messageDigest : ByteVec 32) (signature : ByteVec 64) : Bytes :=
  kangarooTwelve .zero (challengeInput publicKey messageDigest signature) 96
    (Nat.le_of_eq (length_challengeInput publicKey messageDigest signature).symm) 64

/-- `verify` from the decoded key on. -/
def verifyPoint (build : Build) (publicKey messageDigest : ByteVec 32) (signature : ByteVec 64)
    (A : PointAffine F2elm) : Bool :=
  if lowOrder build A then false
  else
    let s := loadWords signature.val 32
    let hh := loadWords (challenge publicKey messageDigest signature) 0
    match eccMulDouble build s hh A with
    | none => false
    | some A => encode A == signature.val.take 32

/-- `verify` from the decoding of the key on. -/
def verifyKey (build : Build) (publicKey messageDigest : ByteVec 32) (signature : ByteVec 64)
    (Pencoded : Encoded) : Bool :=
  match decode build Pencoded with
  | none => false
  | some A => verifyPoint build publicKey messageDigest signature A

/-- `verify`. -/
def verify (build : Build) (publicKey messageDigest : ByteVec 32) (signature : ByteVec 64) :
    Bool :=
  if hbit : bit127 publicKey = 0 ∧ bit127 signature = 0 then
    if !canonicalScalar signature then false
    else if neutralKey publicKey then false
    else verifyKey build publicKey messageDigest signature ⟨publicKey, hbit.1⟩
  else false

end ZkQuorum.Crypto
