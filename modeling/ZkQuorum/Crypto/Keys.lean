import ZkQuorum.Crypto.Compression

/-!
# Public keys (crypto/src/riscv_fourq_verify.c)

What `verify` asks of a key before it looks at the message: `acceptKey`.

- **`weak_keys`**: `cofactor_clearing` multiplies by 392, so the low-order test rejects
  exactly the keys with 392 A = (0, 1) or (0, -1).
- **`acceptKey_map_ne_iff`**: two accepted keys stand for the same point exactly when they
  spell the same y modulo p and the same sign. A component 0 can also be spelled p, so a
  point can have two keys; every other component has one spelling.
-/

namespace ZkQuorum.Crypto

open Edwards LittleEndian Felm

/-! ## The checks of the key -/

/-- The point of a key that passes the checks of `verify`. -/
def acceptKey (build : Build) (publicKey : ByteVec 32) : Option (PointAffine F2elm) :=
  if hbit : bit127 publicKey = 0 then
    if neutralKey publicKey then none
    else (decode build ⟨publicKey, hbit⟩).filter fun A => !lowOrder build A
  else none

theorem acceptKey_eq_some_iff {build : Build} {publicKey : ByteVec 32} {A : PointAffine F2elm} :
    acceptKey build publicKey = some A ↔ ∃ hbit : bit127 publicKey = 0,
      neutralKey publicKey = false ∧ decode build ⟨publicKey, hbit⟩ = some A ∧
        lowOrder build A = false := by
  unfold acceptKey
  split
  · rename_i hbit
    cases hneutral : neutralKey publicKey with
    | true => simp
    | false => simp [hbit, Option.filter_eq_some_iff]
  · rename_i hbit
    simp [hbit]

/-- `verify` is the checks of the signature, the checks of the key and the equation. -/
theorem verify_iff {build : Build} {publicKey messageDigest : ByteVec 32} {signature : ByteVec 64} :
    verify build publicKey messageDigest signature ↔
      bit127 signature = 0 ∧ canonicalScalar signature ∧
        ∃ A, acceptKey build publicKey = some A ∧
          ∃ R, eccMulDouble build (loadWords signature.val 32)
              (loadWords (challenge publicKey messageDigest signature) 0) A = some R ∧
            encode R = signature.val.take 32 := by
  have hpoint : ∀ A, verifyPoint build publicKey messageDigest signature A ↔
      lowOrder build A = false ∧ ∃ R, eccMulDouble build (loadWords signature.val 32)
        (loadWords (challenge publicKey messageDigest signature) 0) A = some R ∧
          encode R = signature.val.take 32 := by
    intro A
    dsimp only [verifyPoint]
    cases lowOrder build A with
    | true => simp
    | false =>
      cases eccMulDouble build (loadWords signature.val 32)
        (loadWords (challenge publicKey messageDigest signature) 0) A with
      | none => simp
      | some R => simp
  have hkey : ∀ b, verifyKey build publicKey messageDigest signature b ↔
      ∃ A, decode build b = some A ∧ verifyPoint build publicKey messageDigest signature A := by
    intro b
    rw [verifyKey]
    cases decode build b with
    | none => simp
    | some A => simp
  simp only [acceptKey_eq_some_iff, verify]
  -- the source checks the key and the signature in turn; every check is one of the conjuncts
  by_cases hbit : bit127 publicKey = 0 ∧ bit127 signature = 0
  · rw [dif_pos hbit]
    cases canonicalScalar signature with
    | false => simp
    | true =>
      cases neutralKey publicKey with
      | true => simp
      | false =>
        simp only [Bool.not_true, Bool.false_eq_true, if_false, hkey, hpoint, hbit,
          exists_true_left, true_and, and_assoc]
  · rw [dif_neg hbit]
    simp only [Bool.false_eq_true, false_iff]
    rintro ⟨hsig, -, A, ⟨hpk, -⟩, -⟩
    exact hbit ⟨hpk, hsig⟩

/-- A decoded point is on the curve. -/
theorem exists_point_of_decode {build : Build} {b : Encoded} {a : PointAffine F2elm}
    (h : decode build b = some a) : ∃ A : CurvePoint, a.map F2elm.toFp2 = ⟨A.x, A.y⟩ :=
  ⟨⟨a.x.toFp2, a.y.toFp2, onCurve_of_decode h⟩, rfl⟩

/-! ## Keys of low order -/

section Chain

variable {P R : PointExtproj F2elm} {A : CurvePoint} {n : Nat}

theorem Represents.double (build : Build) (h : Represents R (n • A)) :
    Represents (Crypto.eccdouble build.ops R) ((n + n) • A) := by
  rw [add_nsmul]
  exact h.eccdouble build

theorem Represents.addOne (build : Build) (hP : Represents P A) (h : Represents R (n • A)) :
    Represents (Crypto.eccadd build.ops (r1ToR2 build.ops P) R) ((n + 1) • A) := by
  rw [succ_nsmul]
  exact h.eccadd build hP

/-- The chain of `cofactor_clearing`: 2, 3, 6, 12, 24, 48, 49, 98, 196, 392. -/
theorem represents_cofactorClearing (build : Build) (hP : Represents P A) :
    Represents (cofactorClearing build.ops P) (392 • A) := by
  have h1 : Represents P (1 • A) := by
    rw [one_nsmul]
    exact hP
  have h3 := hP.addOne build (h1.double build)
  have h48 := (((h3.double build).double build).double build).double build
  have h49 := hP.addOne build h48
  exact ((h49.double build).double build).double build

end Chain

theorem lowOrder_iff (build : Build) {a : PointAffine F2elm} {A : CurvePoint}
    (ha : a.map F2elm.toFp2 = ⟨A.x, A.y⟩) :
    lowOrder build a ↔ 392 • A = 0 ∨ 392 • A = Point.order2 := by
  have h := represents_cofactorClearing build (represents_pointSetup build ha)
  rw [Represents, (toFp2_hom build).map_cofactorClearing, (toFp2_hom build).map_pointSetup] at h
  rw [lowOrder_eq, decide_eq_true_eq, h.x, mul_eq_zero, or_iff_left h.z_ne]
  exact Point.x_eq_zero_iff

/-- **Weak keys never verify.** Every decoded point is on the curve; `cofactor_clearing` gives
392 times a point; and a key whose point has 392 A = (0, 1) is refused, as is one with
392 A = (0, -1). -/
theorem weak_keys (build : Build) :
    (∀ publicKey messageDigest signature, bit127 publicKey ≠ 0 →
      verify build publicKey messageDigest signature = false) ∧
    (∀ b a, decode build b = some a →
      ∃ A : CurvePoint, a.map F2elm.toFp2 = ⟨A.x, A.y⟩ ∧ (392 • A = 0 →
        ∀ messageDigest signature, verify build b.val messageDigest signature = false)) ∧
    ∀ a (A : CurvePoint), a.map F2elm.toFp2 = ⟨A.x, A.y⟩ →
      Represents (cofactorClearing build.ops (pointSetup build.ops a)) (392 • A) ∧
      (lowOrder build a ↔ 392 • A = 0 ∨ 392 • A = Point.order2) := by
  refine ⟨?_, ?_, ?_⟩
  · intro publicKey messageDigest signature hbit
    rw [verify, dif_neg fun h => hbit h.1]
  · intro b a hdecode
    obtain ⟨A, hA⟩ := exists_point_of_decode hdecode
    refine ⟨A, hA, fun hweak messageDigest signature => ?_⟩
    rw [← Bool.not_eq_true, verify_iff]
    rintro ⟨-, -, a', haccept, -⟩
    obtain ⟨hbit, -, hdecode', hlow⟩ := acceptKey_eq_some_iff.mp haccept
    rw [hdecode, Option.some.injEq] at hdecode'
    rw [← hdecode', (lowOrder_iff build hA).mpr (.inl hweak)] at hlow
    cases hlow
  · intro a A hA
    exact ⟨represents_cofactorClearing build (represents_pointSetup build hA),
      lowOrder_iff build hA⟩

/-- The key of the point (0, -1), which decodes and is refused. -/
theorem weak_keys_order2 : ∃ b : Encoded, b.val.val = encode (reduced Point.order2) ∧
    verify .portable b.val (.zero 32) (.zero 64) = false := by
  have hcurve : OnCurve curveD (reduced Point.order2).x.toFp2 (reduced Point.order2).y.toFp2 := by
    rw [reduced, toFp2_ofFp2, toFp2_ofFp2]
    exact Point.order2.on
  obtain ⟨b, hb, a, hdecode, ha⟩ := exists_decode_encode .portable
    (F2elm.reduced_ofFp2 _) (F2elm.reduced_ofFp2 _) hcurve
  obtain ⟨A, hA, hweak⟩ := (weak_keys .portable).2.1 b a hdecode
  have hAa : (⟨A.x, A.y⟩ : PointAffine Fp2) = ⟨0, -1⟩ := hA.symm.trans (ha.trans (map_reduced _))
  have horder : A = Point.order2 :=
    Point.ext (congrArg PointAffine.x hAa) (congrArg PointAffine.y hAa)
  refine ⟨b, hb, hweak ?_ _ _⟩
  have heven : 392 • A = 196 • (A + A) := by rw [← two_nsmul, ← mul_nsmul]
  rw [heven, horder, Point.order2_add_order2, nsmul_zero]

/-! ## Keys with one point -/

/-- The `i`-th 127-bit number of 32 bytes. -/
def yComponent (b : Bytes) (i : Nat) : Nat := toNat ((b.drop (16 * i)).take 16) % 2 ^ 127

theorem toNat_load64_pair {b : Bytes} {i : Nat} (h : i + 16 ≤ b.length) :
    toNat ((b.drop i).take 16) = (load64 b i).toNat + 2 ^ 64 * (load64 b (i + 8)).toNat := by
  have hword : ∀ j, j + 8 ≤ b.length → (load64 b j).toNat = toNat ((b.drop j).take 8) := by
    intro j hj
    apply toNat_toU64
    rw [List.length_take, List.length_drop]
    omega
  have hsplit : (b.drop i).take 16 = (b.drop i).take 8 ++ (b.drop (i + 8)).take 8 := by
    rw [← List.drop_drop, ← List.take_add]
  have hlen : ((b.drop i).take 8).length = 8 := by
    rw [List.length_take, List.length_drop]
    omega
  rw [hsplit, toNat_append, hlen, hword i (by omega), hword (i + 8) (by omega)]
  rfl

theorem value_decodeY (b : Encoded) : (decodeY b).c0.value = yComponent b.val.val 0 ∧
    (decodeY b).c1.value = yComponent b.val.val 1 := by
  have hlen : b.val.val.length = 32 := b.val.property
  have h8 := load64_eight_lt b
  have h0 := (load64 b.val.val 0).toNat_lt
  have h16 := (load64 b.val.val 16).toNat_lt
  have hmask := toNat_and_low63 (load64 b.val.val 24)
  constructor
  · have hpair : toNat ((b.val.val.drop 0).take 16)
        = (load64 b.val.val 0).toNat + 2 ^ 64 * (load64 b.val.val 8).toNat :=
      toNat_load64_pair (by omega)
    show _ = toNat ((b.val.val.drop 0).take 16) % 2 ^ 127
    rw [hpair]
    show (load64 b.val.val 0).toNat + 2 ^ 64 * (load64 b.val.val 8).toNat = _
    omega
  · have hpair : toNat ((b.val.val.drop 16).take 16)
        = (load64 b.val.val 16).toNat + 2 ^ 64 * (load64 b.val.val 24).toNat :=
      toNat_load64_pair (by omega)
    show _ = toNat ((b.val.val.drop 16).take 16) % 2 ^ 127
    rw [hpair]
    show (load64 b.val.val 16).toNat
      + 2 ^ 64 * (load64 b.val.val 24 &&& 0x7FFFFFFFFFFFFFFF).toNat = _
    rw [hmask]
    omega

/-- Two byte strings spell the same y modulo p, and the same sign. -/
def SameSpelling (b b' : ByteVec 32) : Prop :=
  yComponent b.val 0 ≡ yComponent b'.val 0 [MOD p1271] ∧
    yComponent b.val 1 ≡ yComponent b'.val 1 [MOD p1271] ∧ encodedSign b = encodedSign b'

theorem toFp2_decodeY_eq_iff {b b' : Encoded} : (decodeY b).toFp2 = (decodeY b').toFp2 ↔
    yComponent b.val.val 0 ≡ yComponent b'.val.val 0 [MOD p1271] ∧
      yComponent b.val.val 1 ≡ yComponent b'.val.val 1 [MOD p1271] := by
  rw [← ZMod.natCast_eq_natCast_iff, ← ZMod.natCast_eq_natCast_iff, ← (value_decodeY b).1,
    ← (value_decodeY b).2, ← (value_decodeY b').1, ← (value_decodeY b').2]
  constructor
  · intro h
    exact ⟨congrArg (·.re) h, congrArg (·.im) h⟩
  · rintro ⟨h0, h1⟩
    exact Fp2.ext h0 h1

section Accepted

variable {build : Build} {publicKey : ByteVec 32} {a : PointAffine F2elm}

/-- The point of an accepted key: its y and its sign are those of the key. -/
theorem spec_of_acceptKey (h : acceptKey build publicKey = some a) :
    ∃ hbit : bit127 publicKey = 0, OnCurve curveD a.x.toFp2 a.y.toFp2 ∧
      a.y = decodeY ⟨publicKey, hbit⟩ ∧ signFp2 a.x.toFp2 = encodedSign publicKey := by
  obtain ⟨hbit, -, hdecode, hlow⟩ := acceptKey_eq_some_iff.mp h
  have haxis : ¬ OnAxis (a.map F2elm.toFp2) := by
    intro haxis
    rw [lowOrder_eq, decide_eq_false_iff_not] at hlow
    exact hlow (cofactorClearing_of_axis haxis)
  have hy := y_of_decode hdecode
  have hy0 : (decodeY ⟨publicKey, hbit⟩).toFp2 ≠ 0 := by
    rw [← hy]
    exact fun h0 => haxis (.inr h0)
  have hsign := sign_of_decode (.inr hy0) hdecode fun h0 => haxis (.inl h0)
  exact ⟨hbit, onCurve_of_decode hdecode, hy, hsign⟩

/-- **Two accepted keys have different points exactly when they differ in what they spell.** -/
theorem acceptKey_map_ne_iff {publicKey' : ByteVec 32} {a' : PointAffine F2elm}
    (h : acceptKey build publicKey = some a) (h' : acceptKey build publicKey' = some a') :
    a.map F2elm.toFp2 ≠ a'.map F2elm.toFp2 ↔ ¬ SameSpelling publicKey publicKey' := by
  obtain ⟨hbit, hcurve, hy, hsign⟩ := spec_of_acceptKey h
  obtain ⟨hbit', hcurve', hy', hsign'⟩ := spec_of_acceptKey h'
  have hspell : SameSpelling publicKey publicKey' ↔
      a.y.toFp2 = a'.y.toFp2 ∧ signFp2 a.x.toFp2 = signFp2 a'.x.toFp2 := by
    rw [hy, hy', hsign, hsign', toFp2_decodeY_eq_iff, and_assoc]
    rfl
  rw [hspell, not_iff_not]
  constructor
  · intro hmap
    have hx : a.x.toFp2 = a'.x.toFp2 := congrArg PointAffine.x hmap
    exact ⟨congrArg PointAffine.y hmap, by rw [hx]⟩
  · rintro ⟨hyy, hss⟩
    rw [← hyy] at hcurve'
    have hx := eq_of_signFp2_eq (eq_or_eq_neg hcurve hcurve') hss
    rw [PointAffine.map, PointAffine.map, hx, hyy]

end Accepted

/-- A key is accepted when its y and its sign are those of a point off the low orders. -/
theorem exists_acceptKey (build : Build) {b : Encoded} {A : CurvePoint}
    (hy : (decodeY b).toFp2 = A.y) (hsign : signFp2 A.x = encodedSign b.val)
    (hneutral : neutralKey b.val = false)
    (hlow : (cofactorClearing fp2Ops (pointSetup fp2Ops ⟨A.x, A.y⟩)).x ≠ 0) :
    ∃ a, acceptKey build b.val = some a ∧ a.map F2elm.toFp2 = ⟨A.x, A.y⟩ := by
  have haxis : ¬ OnAxis ⟨A.x, A.y⟩ := fun h => hlow (cofactorClearing_of_axis h)
  have hx0 : A.x ≠ 0 := fun h => haxis (.inl h)
  have hy0 : (decodeY b).toFp2 ≠ 0 := by
    rw [hy]
    exact fun h => haxis (.inr h)
  have hcurve : OnCurve curveD A.x (decodeY b).toFp2 := by
    rw [hy]
    exact A.on
  obtain ⟨a, hdecode, hay, hax, hasign⟩ := exists_decode build hcurve (.inr ⟨hx0, hy0⟩)
  have hx : a.x.toFp2 = A.x := eq_of_signFp2_eq hax (by rw [hasign hx0, hsign])
  have hmap : a.map F2elm.toFp2 = ⟨A.x, A.y⟩ := by rw [PointAffine.map, hx, hay, hy]
  refine ⟨a, acceptKey_eq_some_iff.mpr ⟨b.property, hneutral, hdecode, ?_⟩, hmap⟩
  rw [lowOrder_eq, hmap, decide_eq_false hlow]

/-- A point with the y coordinate 2 i. -/
def aliasPoint : CurvePoint where
  x := ⟨0x2f11c58d4b3a4470449568e3eb5e93b4, 0x1b12e9a84b38613791160ac90b69111a⟩
  y := ⟨0, 1 + 1⟩
  on := by
    rw [onCurve_iff_residualFp2]
    decide +kernel

/-- The key of the point, with the first component of y spelled 0. -/
def zeroKey : Encoded := ⟨⟨List.replicate 16 0 ++ 2 :: List.replicate 15 0, rfl⟩, rfl⟩

/-- The key of the point, with the first component of y spelled p. -/
def aliasKey : Encoded :=
  ⟨⟨List.replicate 15 0xFF ++ 0x7F :: 2 :: List.replicate 15 0, rfl⟩, rfl⟩

theorem aliasPoint_cofactorClearing :
    (cofactorClearing fp2Ops (pointSetup fp2Ops ⟨aliasPoint.x, aliasPoint.y⟩)).x ≠ 0 := by
  decide +kernel

theorem exists_acceptKey_zeroKey : ∃ a, acceptKey .portable zeroKey.val = some a ∧
    a.map F2elm.toFp2 = ⟨aliasPoint.x, aliasPoint.y⟩ :=
  exists_acceptKey .portable (by decide +kernel) (by decide +kernel) (by decide +kernel)
    aliasPoint_cofactorClearing

theorem exists_acceptKey_aliasKey : ∃ a, acceptKey .portable aliasKey.val = some a ∧
    a.map F2elm.toFp2 = ⟨aliasPoint.x, aliasPoint.y⟩ :=
  exists_acceptKey .portable (by decide +kernel) (by decide +kernel) (by decide +kernel)
    aliasPoint_cofactorClearing

/-- The two keys are different, both are accepted, and they have the same point. -/
theorem acceptKey_alias : zeroKey.val ≠ aliasKey.val ∧ ∃ a a',
    acceptKey .portable zeroKey.val = some a ∧ acceptKey .portable aliasKey.val = some a' ∧
      a.map F2elm.toFp2 = a'.map F2elm.toFp2 := by
  obtain ⟨a, ha, hmap⟩ := exists_acceptKey_zeroKey
  obtain ⟨a', ha', hmap'⟩ := exists_acceptKey_aliasKey
  exact ⟨by decide, a, a', ha, ha', hmap.trans hmap'.symm⟩

/-- The two keys spell the same y, and the theorem says that their points are equal. -/
theorem acceptKey_map_ne_iff_alias : ∃ a a', acceptKey .portable zeroKey.val = some a ∧
    acceptKey .portable aliasKey.val = some a' ∧
      (a.map F2elm.toFp2 ≠ a'.map F2elm.toFp2 ↔ ¬ SameSpelling zeroKey.val aliasKey.val) := by
  obtain ⟨a, ha, -⟩ := exists_acceptKey_zeroKey
  obtain ⟨a', ha', -⟩ := exists_acceptKey_aliasKey
  exact ⟨a, a', ha, ha', acceptKey_map_ne_iff ha ha'⟩

end ZkQuorum.Crypto
