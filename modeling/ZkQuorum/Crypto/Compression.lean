import ZkQuorum.Crypto.Root
import Mathlib.Data.Nat.Bitwise

/-!
# Point compression and back (crypto/src/riscv_fourq_verify.c)

A compressed point is y and one bit of x: bit 126 of x0, or of x1 where x0 is 0. Bit 126
tells a nonzero field element from its negative, since the two add up to p, all ones.

`exists_decode` is what `decode` finds for the y of a point: the one of x and -x with the
bit of the encoding, also when its first root was the conjugate. **`compression`** states
the round trips.
-/

namespace ZkQuorum.Crypto

open Edwards LittleEndian Felm

/-! ## The sign of a field element -/

theorem val_neg {x : Fp} (hx : x ≠ 0) : (-x).val = p1271 - x.val := by
  rw [ZMod.neg_val, if_neg hx]

/-- The component that the sign is read from. -/
def signPart (x : Fp2) : Fp := if x.re = 0 then x.im else x.re

/-- Bit 126 of a field element, from its high limb. -/
theorem toNat_signLimb (r : Felm) : (r.limbs.2 >>> 62).toNat = r.value / 2 ^ 126 := by
  have hlo := r.limbs.1.toNat_lt
  have hhigh : (r.limbs.2 >>> 62).toNat = r.limbs.2.toNat / 2 ^ 62 :=
    toNat_shiftRight _ (show 62 < 64 by decide)
  rw [hhigh, value, Limbs.value_eq]
  omega

theorem toNat_signFp2 (x : Fp2) : (signFp2 x).toNat = (signPart x).val / 2 ^ 126 := by
  have hshift : ∀ r : Fp, ((ofFp r).limbs.2 >>> 62).toNat = r.val / 2 ^ 126 := by
    intro r
    rw [toNat_signLimb, value_ofFp]
  rw [signFp2, signBit, F2elm.ofFp2, isZero_ofFp, signPart]
  by_cases h : x.re = 0
  · rw [if_pos (decide_eq_true h), if_pos h, hshift]
  · rw [if_neg (by rw [decide_eq_false h]; exact Bool.false_ne_true), if_neg h, hshift]

theorem signPart_ne_zero {x : Fp2} (hx : x ≠ 0) : signPart x ≠ 0 := by
  unfold signPart
  split
  · rename_i h
    exact fun him => hx (Fp2.ext h him)
  · assumption

theorem signPart_neg (x : Fp2) : signPart (-x) = -signPart x := by
  unfold signPart
  show (if -x.re = 0 then -x.im else -x.re) = _
  by_cases h : x.re = 0
  · rw [if_pos (by rw [h, neg_zero]), if_pos h]
  · rw [if_neg (neg_ne_zero.mpr h), if_neg h]

theorem signFp2_lt (x : Fp2) : (signFp2 x).toNat < 2 := by
  have hlt := val_lt (signPart x)
  rw [toNat_signFp2]
  omega

/-- **The two points with one y have different signs.** -/
theorem signFp2_neg {x : Fp2} (hx : x ≠ 0) : (signFp2 (-x)).toNat = 1 - (signFp2 x).toNat := by
  have hlt := val_lt (signPart x)
  have hne : (signPart x).val ≠ 0 := by
    rw [Ne, ZMod.val_eq_zero]
    exact signPart_ne_zero hx
  rw [toNat_signFp2, toNat_signFp2, signPart_neg, val_neg (signPart_ne_zero hx)]
  simp only [p1271]
  omega

theorem signFp2_conj {x : Fp2} (hre : x.re ≠ 0) : signFp2 (conjFp2 x) = signFp2 x := by
  apply UInt64.toNat_inj.mp
  have hpart : signPart (conjFp2 x) = signPart x := by
    show (if x.re = 0 then -x.im else x.re) = if x.re = 0 then x.im else x.re
    rw [if_neg hre, if_neg hre]
  rw [toNat_signFp2, toNat_signFp2, hpart]

/-- Opposite elements with one sign are equal. -/
theorem eq_of_signFp2_eq {x x' : Fp2} (h : UpToSign x' x) (hsign : signFp2 x' = signFp2 x) :
    x' = x := by
  rcases h with h | h
  · exact h
  · by_cases hx : x = 0
    · rw [h, hx, neg_zero]
    · have hneg := signFp2_neg hx
      have hlt := signFp2_lt x
      rw [h] at hsign
      rw [hsign] at hneg
      omega

/-! ## What decoding finds -/

/-- Bit 255 of an encoding. -/
def encodedSign (b : ByteVec 32) : UInt64 := (b.byte (Fin.last 31) >>> 7).toUInt64

theorem encodedSign_lt (b : ByteVec 32) : (encodedSign b).toNat < 2 := by
  have hlt := (b.byte 31).toNat_lt
  rw [encodedSign, UInt8.toNat_toUInt64]
  show (b.byte 31).toNat >>> 7 < 2
  rw [Nat.shiftRight_eq_div_pow]
  omega

section Decoding

variable {build : Build} {b : Encoded} {a : PointAffine F2elm} {x y z : Fp2}

theorem signFp2_decodeX (h : rootOfY (decodeY b).toFp2 ≠ 0) :
    signFp2 (decodeX build b).toFp2 = encodedSign b.val := by
  have hneg := signFp2_neg h
  have hlt := encodedSign_lt b.val
  have hroot := signFp2_lt (rootOfY (decodeY b).toFp2)
  have hflip : encodedSign b.val ≠ signFp2 (rootOfY (decodeY b).toFp2) →
      signFp2 (-rootOfY (decodeY b).toFp2) = encodedSign b.val := by
    intro hne
    rw [Ne, ← UInt64.toNat_inj] at hne
    apply UInt64.toNat_inj.mp
    omega
  rw [toFp2_decodeX]
  dsimp only
  split
  · rename_i hne
    exact hflip hne
  · rename_i heq
    exact (not_not.mp heq).symm

theorem onCurve_of_decode (h : decode build b = some a) : OnCurve curveD a.x.toFp2 a.y.toFp2 := by
  rw [onCurve_iff_residualFp2]
  rw [decode_eq] at h
  split at h
  · rename_i hvalid
    cases h
    exact ((validXY_iff_ne build _ _).mp hvalid).1
  · split at h
    · rename_i hvalid
      cases h
      exact ((validXY_iff_ne build _ _).mp hvalid).1
    · cases h

/-- What `decode` tries: x or the conjugate of x, up to sign. -/
theorem toFp2_decodeX_cases (build : Build) (h : OnCurve curveD x (decodeY b).toFp2) :
    UpToSign (decodeX build b).toFp2 x ∨
      (UpToSign (decodeX build b).toFp2 (conjFp2 x) ∧ x.re ≠ 0 ∧ x.im ≠ 0) := by
  rw [toFp2_decodeX]
  dsimp only
  split
  · exact (rootOfY_eq h).imp UpToSign.neg_left fun h => ⟨h.1.neg_left, h.2⟩
  · exact rootOfY_eq h

/-- Validation is exact where `decode` uses it: for a reduced y, and off the axes. -/
theorem validXY_iff_onCurve (build : Build) {x y : F2elm}
    (h : y.Reduced ∨ (x.toFp2 ≠ 0 ∧ y.toFp2 ≠ 0)) :
    validXY build x y ↔ OnCurve curveD x.toFp2 y.toFp2 := by
  rw [onCurve_iff_residualFp2]
  rcases h with h | ⟨hx, hy⟩
  · exact validXY_iff_of_reduced build x h
  · exact validXY_iff build hx hy

/-- The first root is on the curve: it is x or -x. -/
theorem decode_of_root (hx : UpToSign (decodeX build b).toFp2 x)
    (hexact : (decodeY b).Reduced ∨ (x ≠ 0 ∧ (decodeY b).toFp2 ≠ 0))
    (h : OnCurve curveD x (decodeY b).toFp2) :
    decode build b = some ⟨decodeX build b, decodeY b⟩ := by
  have hvalid : validXY build (decodeX build b) (decodeY b) := by
    rw [validXY_iff_onCurve build (hexact.imp_right fun h => ⟨hx.ne_zero h.1, h.2⟩)]
    exact hx.onCurve h
  rw [decode_eq, if_pos hvalid]

/-- The first root is the conjugate of x or -x: it is off the curve, and its conjugate on it. -/
theorem decode_of_conj (hx : UpToSign (decodeX build b).toFp2 (conjFp2 x)) (hre : x.re ≠ 0)
    (him : x.im ≠ 0) (hexact : (decodeY b).Reduced ∨ (x ≠ 0 ∧ (decodeY b).toFp2 ≠ 0))
    (h : OnCurve curveD x (decodeY b).toFp2) :
    decode build b = some ⟨build.ops.fpneg1271 (decodeX build b), decodeY b⟩ ∧
      UpToSign (build.ops.fpneg1271 (decodeX build b)).toFp2 x := by
  have hconj : UpToSign (build.ops.fpneg1271 (decodeX build b)).toFp2 x := by
    rw [(toFp2_hom build).map_conj, ← conjFp2_conjFp2 x]
    exact hx.conj
  -- the first candidate is the conjugate, which is not on the curve with this y
  have hinvalid : ¬ validXY build (decodeX build b) (decodeY b) := by
    rw [validXY_iff_onCurve build (hexact.imp_right fun h =>
      ⟨hx.ne_zero fun h0 => h.1 (conjFp2_eq_zero.mp h0), h.2⟩)]
    rcases hx with hx | hx
    · rw [hx]
      exact not_onCurve_conj h hre him
    · rw [hx]
      intro hneg
      apply not_onCurve_conj h hre him
      rw [← neg_neg (conjFp2 x)]
      exact Point.onCurve_neg hneg
  have hvalid : validXY build (build.ops.fpneg1271 (decodeX build b)) (decodeY b) := by
    rw [validXY_iff_onCurve build (hexact.imp_right fun h => ⟨hconj.ne_zero h.1, h.2⟩)]
    exact hconj.onCurve h
  rw [decode_eq, if_neg hinvalid, if_pos hvalid]
  exact ⟨rfl, hconj⟩

/-- **`decode` finds the point with the y of the bytes and the sign of the bytes.** -/
theorem exists_decode (build : Build) (h : OnCurve curveD x (decodeY b).toFp2)
    (hexact : (decodeY b).Reduced ∨ (x ≠ 0 ∧ (decodeY b).toFp2 ≠ 0)) :
    ∃ a, decode build b = some a ∧ a.y = decodeY b ∧ UpToSign a.x.toFp2 x ∧
      (x ≠ 0 → signFp2 a.x.toFp2 = encodedSign b.val) := by
  have hroot : x ≠ 0 → rootOfY (decodeY b).toFp2 ≠ 0 := by
    intro hx
    rcases rootOfY_eq h with hr | ⟨hr, -⟩
    · exact hr.ne_zero hx
    · exact hr.ne_zero fun h0 => hx (conjFp2_eq_zero.mp h0)
  rcases toFp2_decodeX_cases build h with hx | ⟨hx, hre, him⟩
  · exact ⟨_, decode_of_root hx hexact h, rfl, hx, fun hne => signFp2_decodeX (hroot hne)⟩
  · obtain ⟨hdecode, hconj⟩ := decode_of_conj hx hre him hexact h
    refine ⟨_, hdecode, rfl, hconj, fun hne => ?_⟩
    rw [(toFp2_hom build).map_conj]
    show signFp2 (conjFp2 _) = _
    rw [signFp2_conj (hx.re_ne_zero hre)]
    exact signFp2_decodeX (hroot hne)

end Decoding

/-! ## The bytes of an encoding -/

/-- The bytes of y, with a sign in bit 255. -/
def encodeWith (y : F2elm) (sign : UInt64) : Bytes :=
  ofU64 y.c0.limbs.1 ++ ofU64 y.c0.limbs.2 ++ ofU64 y.c1.limbs.1
    ++ ofU64 (y.c1.limbs.2 ||| sign <<< 63)

/-- Bit 126 of a field element, moved to bit 127. -/
theorem moveBit (a : Felm) :
    (a.limbs.2 &&& 0x4000000000000000) <<< 1 = (a.limbs.2 >>> 62) <<< 63 := by
  have hlt := high_lt a.le
  have hshift : (a.limbs.2 >>> 62).toNat = a.limbs.2.toNat / 2 ^ 62 :=
    toNat_shiftRight _ (show 62 < 64 by decide)
  have hup : ((a.limbs.2 >>> 62) <<< 63).toNat = (a.limbs.2 >>> 62).toNat % 2 ^ 1 * 2 ^ 63 :=
    toNat_shiftLeft _ (show 63 < 64 by decide)
  have hbit : (a.limbs.2 &&& 0x4000000000000000).toNat
      = 2 ^ 62 * (a.limbs.2.toNat / 2 ^ 62 % 2) := by
    rw [UInt64.toNat_and, Nat.and_comm]
    show 2 ^ 62 &&& a.limbs.2.toNat = _
    rw [Nat.two_pow_and, Nat.toNat_testBit]
  apply UInt64.toNat_inj.mp
  rw [toNat_shiftLeft1, hup, hshift, hbit]
  omega

theorem encode_eq_encodeWith (P : PointAffine F2elm) : encode P = encodeWith P.y (signBit P.x) := by
  simp only [encode, encodeWith, signBit, moveBit]
  by_cases h : P.x.c0.isZero
  · rw [if_pos h, if_pos h]
  · rw [if_neg h, if_neg h]

/-- A word with a sign in its top bit. -/
theorem or_sign_eq_iff {w s v : UInt64} (hw : w.toNat < 2 ^ 63) (hs : s.toNat < 2) :
    w ||| s <<< 63 = v ↔ w = v &&& 0x7FFFFFFFFFFFFFFF ∧ s = v >>> 63 := by
  have hshift : (s <<< 63).toNat = s.toNat % 2 ^ 1 * 2 ^ 63 :=
    toNat_shiftLeft _ (show 63 < 64 by decide)
  have hor := toNat_or_of_lt hw hshift
  have hlow := toNat_and_low63 v
  have htop := toNat_shiftRight63 v
  rw [← UInt64.toNat_inj, ← UInt64.toNat_inj (b := v &&& _), ← UInt64.toNat_inj (b := v >>> 63)]
  omega

theorem byte_eq_getD {n : Nat} (v : ByteVec n) (i : Fin n) : v.byte i = v.val.getD i 0 := by
  rw [List.getD_eq_getElem?_getD,
    List.getElem?_eq_getElem (Nat.lt_of_lt_of_eq i.isLt v.property.symm)]
  rfl

theorem encodedSign_eq (b : ByteVec 32) : encodedSign b = load64 b.val 24 >>> 63 := by
  have hlen : b.val.length = 32 := b.property
  obtain ⟨low, hlow, hload⟩ := load64_top (b := b.val) (i := 24) (by omega)
  have hbyte : b.byte 31 = b.val.getD 31 0 := byte_eq_getD b 31
  have hlt := (b.byte 31).toNat_lt
  apply UInt64.toNat_inj.mp
  rw [encodedSign, UInt8.toNat_toUInt64, toNat_shiftRight63, hload, ← hbyte]
  show (b.byte 31).toNat >>> 7 = _
  rw [Nat.shiftRight_eq_div_pow]
  omega

/-- The four words of 32 bytes. -/
theorem bytes_eq_words (b : ByteVec 32) : b.val = ofU64 (load64 b.val 0) ++ ofU64 (load64 b.val 8)
    ++ ofU64 (load64 b.val 16) ++ ofU64 (load64 b.val 24) := by
  have hlen : b.val.length = 32 := b.property
  have hword : ∀ i, i + 8 ≤ 32 → ofU64 (load64 b.val i) = (b.val.drop i).take 8 := by
    intro i hi
    apply ofU64_toU64
    rw [List.length_take, List.length_drop]
    omega
  have hlast : (b.val.drop 24).take 8 = b.val.drop 24 := by
    apply List.take_of_length_le
    rw [List.length_drop]
    omega
  rw [hword 0 (by decide), hword 8 (by decide), hword 16 (by decide), hword 24 (by decide), hlast]
  have hjoin : ∀ i, b.val.take i ++ (b.val.drop i).take 8 = b.val.take (i + 8) := fun i =>
    List.take_add.symm
  show _ = b.val.take 8 ++ (b.val.drop 8).take 8 ++ (b.val.drop 16).take 8 ++ b.val.drop 24
  rw [hjoin, hjoin, List.take_append_drop]

theorem append_ofU64_inj {bs cs : Bytes} {v w : UInt64} :
    bs ++ ofU64 v = cs ++ ofU64 w ↔ bs = cs ∧ v = w := by
  constructor
  · intro h
    obtain ⟨hbs, hvw⟩ := List.append_inj' h (by rw [length_ofU64, length_ofU64])
    exact ⟨hbs, ofU64_inj.mp hvw⟩
  · rintro ⟨rfl, rfl⟩
    rfl

/-- The bytes spell y, whatever their bit 255. -/
def SpellsY (y : F2elm) (b : ByteVec 32) : Prop :=
  y.c0.limbs = (load64 b.val 0, load64 b.val 8) ∧
    y.c1.limbs = (load64 b.val 16, load64 b.val 24 &&& 0x7FFFFFFFFFFFFFFF)

theorem spellsY_iff_decodeY {y : F2elm} {b : Encoded} : SpellsY y b.val ↔ y = decodeY b := by
  obtain ⟨⟨l0, h0⟩, ⟨l1, h1⟩⟩ := y
  rw [decodeY, F2elm.ofWords, F2elm.mk.injEq, Felm.mk.injEq, Felm.mk.injEq]
  rfl

/-- **What some bytes encode**: their y, and the sign in bit 255. -/
theorem encodeWith_eq_iff_spellsY {y : F2elm} {sign : UInt64} (hs : sign.toNat < 2)
    (b : ByteVec 32) : encodeWith y sign = b.val ↔ SpellsY y b ∧ sign = encodedSign b := by
  have hwords := bytes_eq_words b
  rw [SpellsY, encodedSign_eq, Prod.ext_iff, Prod.ext_iff, encodeWith]
  constructor
  · intro h
    rw [hwords, append_ofU64_inj, append_ofU64_inj, append_ofU64_inj, ofU64_inj,
      or_sign_eq_iff (high_lt y.c1.le) hs] at h
    obtain ⟨⟨⟨h0, h1⟩, h2⟩, h3, h4⟩ := h
    exact ⟨⟨⟨h0, h1⟩, h2, h3⟩, h4⟩
  · rintro ⟨⟨⟨h0, h1⟩, h2, h3⟩, h4⟩
    rw [hwords, append_ofU64_inj, append_ofU64_inj, append_ofU64_inj, ofU64_inj,
      or_sign_eq_iff (high_lt y.c1.le) hs]
    exact ⟨⟨⟨h0, h1⟩, h2⟩, h3, h4⟩

theorem encodeWith_eq_iff {y : F2elm} {sign : UInt64} (hs : sign.toNat < 2) (b : Encoded) :
    encodeWith y sign = b.val.val ↔ y = decodeY b ∧ sign = encodedSign b.val := by
  rw [encodeWith_eq_iff_spellsY hs, spellsY_iff_decodeY]

theorem and_eq_zero_of_lt {b : UInt8} (h : b.toNat < 2 ^ 7) : b &&& 0x80 = 0 := by
  apply UInt8.toNat_inj.mp
  rw [UInt8.toNat_and]
  show b.toNat &&& 2 ^ 7 = 0
  rw [Nat.and_two_pow, Nat.testBit_lt_two_pow h]
  rfl

/-- The bytes of an encoding have bit 127 clear. -/
theorem exists_encoded (P : PointAffine F2elm) : ∃ b : Encoded, b.val.val = encode P := by
  have hlen : (encode P).length = 32 := by
    simp only [encode, List.length_append, length_ofU64]
  have hword : load64 (encode P) 8 = P.y.c0.limbs.2 := by
    have hdrop : (encode P).drop 8 = ofU64 P.y.c0.limbs.2 ++
        (ofU64 P.y.c1.limbs.1 ++ ofU64 (P.y.c1.limbs.2 ||| signBit P.x <<< 63)) := by
      rw [encode_eq_encodeWith, encodeWith, List.append_assoc, List.append_assoc,
        List.drop_left' (length_ofU64 _)]
    rw [load64, hdrop, List.take_left' (length_ofU64 _), toU64_ofU64]
  have hbit : bit127 (⟨encode P, hlen⟩ : ByteVec 32) = 0 := by
    apply and_eq_zero_of_lt
    obtain ⟨low, hlow, hload⟩ := load64_top (b := encode P) (i := 8) (by omega)
    have hlt := high_lt P.y.c0.le
    rw [hword] at hload
    show ((encode P).getD (8 + 7) 0).toNat < 2 ^ 7
    omega
  exact ⟨⟨⟨encode P, hlen⟩, hbit⟩, rfl⟩

/-! ## The round trips -/

theorem ofFp2_toFp2 {x : F2elm} (hx : x.Reduced) : F2elm.ofFp2 x.toFp2 = x := by
  have hcomp : ∀ {r : Felm}, r.value < p1271 → ofFp r.toFp = r := by
    intro r hr
    apply ext_value
    rw [value_ofFp_toFp, Nat.mod_eq_of_lt hr]
  obtain ⟨x0, x1⟩ := x
  rw [F2elm.ofFp2, F2elm.toFp2, hcomp hx.1, hcomp hx.2]

/-- Reducing both components. -/
theorem mod1271_eq_ofFp2 (x : F2elm) :
    (⟨mod1271 x.c0, mod1271 x.c1⟩ : F2elm) = F2elm.ofFp2 x.toFp2 := by
  rw [mod1271_eq, mod1271_eq]
  rfl

theorem y_of_decode {build : Build} {b : Encoded} {a : PointAffine F2elm}
    (h : decode build b = some a) : a.y = decodeY b := (decode_cases h).1

/-- The sign of a decoded x is the sign of the bytes. -/
theorem sign_of_decode {build : Build} {b : Encoded} {a : PointAffine F2elm}
    (hexact : (decodeY b).Reduced ∨ (decodeY b).toFp2 ≠ 0) (h : decode build b = some a)
    (hx : a.x.toFp2 ≠ 0) : signFp2 a.x.toFp2 = encodedSign b.val := by
  have hcurve := onCurve_of_decode h
  rw [y_of_decode h] at hcurve
  obtain ⟨a', hdecode, -, -, hsign⟩ :=
    exists_decode build hcurve (hexact.imp_right fun hy => ⟨hx, hy⟩)
  rw [h, Option.some.injEq] at hdecode
  rw [← hdecode] at hsign
  exact hsign hx

/-- A point with reduced coordinates is found again from its encoding. -/
theorem exists_decode_encode (build : Build) {P : PointAffine F2elm} (hPx : P.x.Reduced)
    (hPy : P.y.Reduced) (hcurve : OnCurve curveD P.x.toFp2 P.y.toFp2) :
    ∃ b : Encoded, b.val.val = encode P ∧
      ∃ a, decode build b = some a ∧ a.map F2elm.toFp2 = P.map F2elm.toFp2 := by
  obtain ⟨b, hb⟩ := exists_encoded P
  have hsign : signBit P.x = signFp2 P.x.toFp2 := by rw [signFp2, ofFp2_toFp2 hPx]
  have henc := hb.symm
  rw [encode_eq_encodeWith, hsign, encodeWith_eq_iff (signFp2_lt _)] at henc
  obtain ⟨hy, hbit⟩ := henc
  rw [hy] at hcurve hPy
  obtain ⟨a, ha, hay, hax, hasign⟩ := exists_decode build hcurve (.inl hPy)
  have hx : a.x.toFp2 = P.x.toFp2 := by
    apply eq_of_signFp2_eq hax
    by_cases h0 : P.x.toFp2 = 0
    · rcases hax with hax | hax
      · rw [hax]
      · rw [hax, h0, neg_zero]
    · rw [hasign h0, hbit]
  refine ⟨b, hb, a, ha, ?_⟩
  rw [PointAffine.map, PointAffine.map, hx, hay, hy]

/-- **Compression and back.** On bytes with a reduced y, `decode` finds a point exactly when
there is one with that y, and its encoding gives the bytes back; and every point with reduced
coordinates is found again from its encoding. -/
theorem compression (build : Build) :
    (∀ b : Encoded, (decodeY b).Reduced →
      ((decode build b).isSome ↔ ∃ x, OnCurve curveD x (decodeY b).toFp2) ∧
      ∀ a, decode build b = some a → OnCurve curveD a.x.toFp2 a.y.toFp2 ∧ a.y = decodeY b ∧
        (a.x.toFp2 ≠ 0 → encode ⟨⟨mod1271 a.x.c0, mod1271 a.x.c1⟩, a.y⟩ = b.val.val)) ∧
    ∀ P : PointAffine F2elm, P.x.Reduced → P.y.Reduced → OnCurve curveD P.x.toFp2 P.y.toFp2 →
      ∃ b : Encoded, b.val.val = encode P ∧
        ∃ a, decode build b = some a ∧ a.map F2elm.toFp2 = P.map F2elm.toFp2 := by
  constructor
  -- from the bytes
  · intro b hred
    refine ⟨?_, ?_⟩
    · constructor
      · intro hsome
        obtain ⟨a, ha⟩ := Option.isSome_iff_exists.mp hsome
        have hcurve := onCurve_of_decode ha
        rw [y_of_decode ha] at hcurve
        exact ⟨a.x.toFp2, hcurve⟩
      · rintro ⟨x, hx⟩
        obtain ⟨a, ha, -⟩ := exists_decode build hx (.inl hred)
        rw [ha]
        rfl
    · intro a ha
      refine ⟨onCurve_of_decode ha, y_of_decode ha, fun hx => ?_⟩
      rw [encode_eq_encodeWith, mod1271_eq_ofFp2]
      show encodeWith a.y (signFp2 a.x.toFp2) = _
      exact (encodeWith_eq_iff (signFp2_lt _) b).mpr
        ⟨y_of_decode ha, sign_of_decode (.inl hred) ha hx⟩
  -- from the point
  · intro P hPx hPy hcurve
    exact exists_decode_encode build hPx hPy hcurve

/-- The point (i, 0) is found again from its encoding. -/
theorem compression_orderFour : ∃ b : Encoded, b.val.val = encode (reduced orderFour) ∧
    ∃ a, decode .portable b = some a ∧
      a.map F2elm.toFp2 = (reduced orderFour).map F2elm.toFp2 := by
  apply (compression .portable).2
  · exact F2elm.reduced_ofFp2 _
  · exact F2elm.reduced_ofFp2 _
  · rw [reduced, toFp2_ofFp2, toFp2_ofFp2]
    exact orderFour.on

end ZkQuorum.Crypto
