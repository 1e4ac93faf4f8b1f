import ZkQuorum.Crypto.Montgomery

/-!
# Arithmetic modulo the curve order in the reference (crypto/src/stock_qubic.c)

`multiply` and `Montgomery_multiply_mod_order` of the reference have every loop written out, and
their carries go to the next word as they arise. They compute what the loops of the port compute
(**`montgomeryMultiplyModOrder_eq`**), for all words and not only below the order.
-/

namespace ZkQuorum.Crypto.Stock

/-- The words that one factor times four words leaves. -/
abbrev Row := UInt64 × UInt64 × UInt64 × UInt64 × UInt64

/-- The first four lines of `multiply`: `c[0]` to `c[4]`. -/
def firstRow (a : UInt64) (b : Words4) : Row :=
  let (c0, u) := umul128 a b[0]!
  let (tmp, uv) := umul128 a b[1]!
  let (c, c1) := addcarry64 false tmp u
  let u := c.toUInt64 + uv
  let (tmp, uv) := umul128 a b[2]!
  let (c, c2) := addcarry64 false tmp u
  let u := c.toUInt64 + uv
  let (tmp, uv) := umul128 a b[3]!
  let (c, c3) := addcarry64 false tmp u
  (c0, c1, c2, c3, c.toUInt64 + uv)

/-- The lines of `multiply` for `a[1]`, `a[2]` or `a[3]`: `c[i]` to `c[i + 3]` are updated and
`c[i + 4]` is written. -/
def nextRow (a : UInt64) (b : Words4) (c0 c1 c2 c3 : UInt64) : Row :=
  let (tmp, uv) := umul128 a b[0]!
  let (c, c0) := addcarry64 false c0 tmp
  let u := c.toUInt64 + uv
  let (tmp, uv) := umul128 a b[1]!
  let (c, v) := addcarry64 false tmp u
  let u := c.toUInt64 + uv
  let (tmp, uv) := umul128 a b[2]!
  let (c, c1) := addcarry64 false c1 v
  let (c, v) := addcarry64 c tmp u
  let u := c.toUInt64 + uv
  let (tmp, uv) := umul128 a b[3]!
  let (c, c2) := addcarry64 false c2 v
  let (tmp, v) := addcarry64 c tmp u
  let (c, c3) := addcarry64 false c3 v
  (c0, c1, c2, c3, tmp.toUInt64 + uv + c.toUInt64)

/-- `multiply`. -/
def multiply (a b : Words4) : Vector UInt64 8 :=
  let (c0, c1, c2, c3, c4) := firstRow a[0]! b
  let (c1, c2, c3, c4, c5) := nextRow a[1]! b c1 c2 c3 c4
  let (c2, c3, c4, c5, c6) := nextRow a[2]! b c2 c3 c4 c5
  let (c3, c4, c5, c6, c7) := nextRow a[3]! b c3 c4 c5 c6
  #v[c0, c1, c2, c3, c4, c5, c6, c7]

/-- The lines of the quotient for `P[0]`: `Q[0]` to `Q[3]`. -/
def lowRow0 (P : UInt64) (rp : Words4) : UInt64 × UInt64 × UInt64 × UInt64 :=
  let (Q0, u) := umul128 P rp[0]!
  let (tmp, uv) := umul128 P rp[1]!
  let (c, Q1) := addcarry64 false tmp u
  let u := c.toUInt64 + uv
  let (tmp, uv) := umul128 P rp[2]!
  let (c, Q2) := addcarry64 false tmp u
  let u := c.toUInt64 + uv
  let (_, Q3) := addcarry64 false (P * rp[3]!) u
  (Q0, Q1, Q2, Q3)

/-- The lines of the quotient for `P[1]`: `Q[1]` to `Q[3]`. -/
def lowRow1 (P : UInt64) (rp : Words4) (Q1 Q2 Q3 : UInt64) : UInt64 × UInt64 × UInt64 :=
  let (tmp, uv) := umul128 P rp[0]!
  let (c, Q1) := addcarry64 false Q1 tmp
  let u := c.toUInt64 + uv
  let (tmp, uv) := umul128 P rp[1]!
  let (c, v) := addcarry64 false tmp u
  let u := c.toUInt64 + uv
  let (c, Q2) := addcarry64 false Q2 v
  let (_, v) := addcarry64 c (P * rp[2]!) u
  let (_, Q3) := addcarry64 false Q3 v
  (Q1, Q2, Q3)

/-- The lines of the quotient for `P[2]`: `Q[2]` and `Q[3]`. -/
def lowRow2 (P : UInt64) (rp : Words4) (Q2 Q3 : UInt64) : UInt64 × UInt64 :=
  let (tmp, uv) := umul128 P rp[0]!
  let (c, Q2) := addcarry64 false Q2 tmp
  let u := c.toUInt64 + uv
  let (_, v) := addcarry64 false (P * rp[1]!) u
  let (_, Q3) := addcarry64 false Q3 v
  (Q2, Q3)

/-- `Q`. -/
def lowProduct (P rp : Words4) : Words4 :=
  let (Q0, Q1, Q2, Q3) := lowRow0 P[0]! rp
  let (Q1, Q2, Q3) := lowRow1 P[1]! rp Q1 Q2 Q3
  let (Q2, Q3) := lowRow2 P[2]! rp Q2 Q3
  let (_, Q3) := addcarry64 false Q3 (P[3]! * rp[0]!)
  #v[Q0, Q1, Q2, Q3]

/-- `P`. -/
def factorProduct (ma mb : Words4) : Vector UInt64 8 :=
  if mb[0]! == 1 && mb[1]! == 0 && mb[2]! == 0 && mb[3]! == 0 then
    widen ma
  else multiply ma mb

/-- `Montgomery_multiply_mod_order`. The nested additions and subtractions are the lines of the
port, and the branch is taken when their difference is not 0. -/
def montgomeryMultiplyModOrder (ma mb : Words4) : Words4 :=
  let P := factorProduct ma mb
  let Q := lowProduct (lowHalf P) montgomerySmallRPrime
  let temp := multiply Q curveOrder
  let (addCarry, temp) := addWords P temp
  finalSubtraction addCarry temp

/-! ## The rows as numbers -/

/-- The number of a row. -/
def rowNat (r : Row) : Nat :=
  r.1.toNat + 2 ^ 64 * r.2.1.toNat + 2 ^ 128 * r.2.2.1.toNat + 2 ^ 192 * r.2.2.2.1.toNat
    + 2 ^ 256 * r.2.2.2.2.toNat

/-- Four words times a factor, word by word. -/
def scaled (a : UInt64) (b : Words4) : Nat :=
  a.toNat * b[0]!.toNat + 2 ^ 64 * (a.toNat * b[1]!.toNat) + 2 ^ 128 * (a.toNat * b[2]!.toNat)
    + 2 ^ 192 * (a.toNat * b[3]!.toNat)

theorem scaled_eq (a : UInt64) (b : Words4) : scaled a b = a.toNat * Words.value b := by
  rw [scaled, Words.value_four]
  ring

/-- A carry on top of the high word of a product, which leaves room for it. -/
theorem toNat_carry {x y lo uv : UInt64} (h : umul128 x y = (lo, uv)) (c : Bool) :
    (c.toUInt64 + uv).toNat = uv.toNat + c.toNat := by
  have e := umul128_of_eq h
  have hprod := mul_toNat_le x y
  have hc := c.toNat_le
  rw [UInt64.toNat_add, toNat_toUInt64]
  omega

theorem rowNat_firstRow (a : UInt64) (b : Words4) :
    rowNat (firstRow a b) = a.toNat * Words.value b := by
  rcases h0 : umul128 a b[0]! with ⟨c0, u0⟩
  rcases h1 : umul128 a b[1]! with ⟨tmp1, uv1⟩
  rcases k1 : addcarry64 false tmp1 u0 with ⟨d1, c1⟩
  rcases h2 : umul128 a b[2]! with ⟨tmp2, uv2⟩
  rcases k2 : addcarry64 false tmp2 (d1.toUInt64 + uv1) with ⟨d2, c2⟩
  rcases h3 : umul128 a b[3]! with ⟨tmp3, uv3⟩
  rcases k3 : addcarry64 false tmp3 (d2.toUInt64 + uv2) with ⟨d3, c3⟩
  have e0 := umul128_of_eq h0
  have e1 := umul128_of_eq h1
  have e2 := umul128_of_eq h2
  have e3 := umul128_of_eq h3
  have f1 := addcarry64_of_eq k1
  have f2 := addcarry64_of_eq k2
  have f3 := addcarry64_of_eq k3
  have hb1 := d1.toNat_le
  have hb2 := d2.toNat_le
  have hb3 := d3.toNat_le
  -- a high word has room for the carry into it
  have hu1 := toNat_carry h1 d1
  have hu2 := toNat_carry h2 d2
  have hu3 := toNat_carry h3 d3
  have hf : false.toNat = 0 := rfl
  rw [← scaled_eq]
  simp only [firstRow, rowNat, scaled, h0, h1, h2, h3, k1, k2, k3]
  rw [hu3]
  rw [hu1] at f2
  rw [hu2] at f3
  omega

theorem rowNat_nextRow (a : UInt64) (b : Words4) (c0 c1 c2 c3 : UInt64) :
    rowNat (nextRow a b c0 c1 c2 c3) = c0.toNat + 2 ^ 64 * c1.toNat + 2 ^ 128 * c2.toNat
      + 2 ^ 192 * c3.toNat + a.toNat * Words.value b := by
  rcases h0 : umul128 a b[0]! with ⟨tmp0, uv0⟩
  rcases k0 : addcarry64 false c0 tmp0 with ⟨d0, w0⟩
  rcases h1 : umul128 a b[1]! with ⟨tmp1, uv1⟩
  rcases k1 : addcarry64 false tmp1 (d0.toUInt64 + uv0) with ⟨d1, v1⟩
  rcases h2 : umul128 a b[2]! with ⟨tmp2, uv2⟩
  rcases k2 : addcarry64 false c1 v1 with ⟨d2, w1⟩
  rcases k3 : addcarry64 d2 tmp2 (d1.toUInt64 + uv1) with ⟨d3, v2⟩
  rcases h3 : umul128 a b[3]! with ⟨tmp3, uv3⟩
  rcases k4 : addcarry64 false c2 v2 with ⟨d4, w2⟩
  rcases k5 : addcarry64 d4 tmp3 (d3.toUInt64 + uv2) with ⟨d5, v3⟩
  rcases k6 : addcarry64 false c3 v3 with ⟨d6, w3⟩
  have e0 := umul128_of_eq h0
  have e1 := umul128_of_eq h1
  have e2 := umul128_of_eq h2
  have e3 := umul128_of_eq h3
  have f0 := addcarry64_of_eq k0
  have f1 := addcarry64_of_eq k1
  have f2 := addcarry64_of_eq k2
  have f3 := addcarry64_of_eq k3
  have f4 := addcarry64_of_eq k4
  have f5 := addcarry64_of_eq k5
  have f6 := addcarry64_of_eq k6
  have hu0 := toNat_carry h0 d0
  have hu1 := toNat_carry h1 d1
  have hu2 := toNat_carry h2 d3
  have hf : false.toNat = 0 := rfl
  rw [hu0] at f1
  rw [hu1] at f3
  rw [hu2] at f5
  -- the whole row is below 2^320, so that its last word does not wrap
  have hlast : (d5.toUInt64 + uv3 + d6.toUInt64).toNat = d5.toNat + uv3.toNat + d6.toNat := by
    have hb := b[3]!.toNat_lt
    have p0 := mul_toNat_le a b[0]!
    have p1 := mul_toNat_le a b[1]!
    have p2 := mul_toNat_le a b[2]!
    have p3 := mul_toNat_le a b[3]!
    have g0 := c0.toNat_lt
    have g1 := c1.toNat_lt
    have g2 := c2.toNat_lt
    have g3 := c3.toNat_lt
    rw [UInt64.toNat_add, UInt64.toNat_add, toNat_toUInt64, toNat_toUInt64]
    omega
  rw [← scaled_eq]
  simp only [nextRow, rowNat, scaled, h0, h1, h2, h3, k0, k1, k2, k3, k4, k5, k6]
  rw [hlast]
  omega

theorem value_eight (c0 c1 c2 c3 c4 c5 c6 c7 : UInt64) :
    Words.value (#v[c0, c1, c2, c3, c4, c5, c6, c7] : Vector UInt64 8)
      = Words.value (#v[c0, c1, c2, c3] : Words4)
        + 2 ^ 256 * Words.value (#v[c4, c5, c6, c7] : Words4) :=
  value_halves _

theorem value_words (c0 c1 c2 c3 : UInt64) : Words.value (#v[c0, c1, c2, c3] : Words4)
    = c0.toNat + c1.toNat * 2 ^ 64 + c2.toNat * 2 ^ 128 + c3.toNat * 2 ^ 192 :=
  Words.value_four _

/-- **`multiply` of the reference is the product.** -/
theorem value_multiply (a b : Words4) :
    Words.value (multiply a b) = Words.value a * Words.value b := by
  rcases h0 : firstRow a[0]! b with ⟨c0, c1, c2, c3, c4⟩
  rcases h1 : nextRow a[1]! b c1 c2 c3 c4 with ⟨w1, w2, w3, w4, w5⟩
  rcases h2 : nextRow a[2]! b w2 w3 w4 w5 with ⟨x2, x3, x4, x5, x6⟩
  rcases h3 : nextRow a[3]! b x3 x4 x5 x6 with ⟨y3, y4, y5, y6, y7⟩
  have e0 := rowNat_firstRow a[0]! b
  have e1 := rowNat_nextRow a[1]! b c1 c2 c3 c4
  have e2 := rowNat_nextRow a[2]! b w2 w3 w4 w5
  have e3 := rowNat_nextRow a[3]! b x3 x4 x5 x6
  rw [h0] at e0
  rw [h1] at e1
  rw [h2] at e2
  rw [h3] at e3
  simp only [rowNat] at e0 e1 e2 e3
  simp only [multiply, h0, h1, h2, h3, value_eight, value_words]
  rw [Words.value_four a]
  generalize Words.value b = B at *
  linear_combination e0 + 2 ^ 64 * e1 + 2 ^ 128 * e2 + 2 ^ 192 * e3

/-! ## The quotient as a number -/

theorem lowRow0_eq (P : UInt64) (rp : Words4) : ∃ k,
    P.toNat * Words.value rp = (lowRow0 P rp).1.toNat + 2 ^ 64 * (lowRow0 P rp).2.1.toNat
      + 2 ^ 128 * (lowRow0 P rp).2.2.1.toNat + 2 ^ 192 * (lowRow0 P rp).2.2.2.toNat
      + 2 ^ 256 * k := by
  rcases h0 : umul128 P rp[0]! with ⟨Q0, u0⟩
  rcases h1 : umul128 P rp[1]! with ⟨tmp1, uv1⟩
  rcases k1 : addcarry64 false tmp1 u0 with ⟨d1, Q1⟩
  rcases h2 : umul128 P rp[2]! with ⟨tmp2, uv2⟩
  rcases k2 : addcarry64 false tmp2 (d1.toUInt64 + uv1) with ⟨d2, Q2⟩
  rcases k3 : addcarry64 false (P * rp[3]!) (d2.toUInt64 + uv2) with ⟨d3, Q3⟩
  have e0 := umul128_of_eq h0
  have e1 := umul128_of_eq h1
  have e2 := umul128_of_eq h2
  have f1 := addcarry64_of_eq k1
  have f2 := addcarry64_of_eq k2
  have f3 := addcarry64_of_eq k3
  have hu1 := toNat_carry h1 d1
  have hu2 := toNat_carry h2 d2
  have hf : false.toNat = 0 := rfl
  rw [hu1] at f2
  rw [hu2, UInt64.toNat_mul] at f3
  refine ⟨P.toNat * rp[3]!.toNat / 2 ^ 64 + d3.toNat, ?_⟩
  rw [← scaled_eq]
  simp only [lowRow0, scaled, h0, h1, h2, k1, k2, k3]
  omega

theorem lowRow1_eq (P : UInt64) (rp : Words4) (Q1 Q2 Q3 : UInt64) : ∃ k,
    Q1.toNat + 2 ^ 64 * Q2.toNat + 2 ^ 128 * Q3.toNat + P.toNat * Words.value rp
      = (lowRow1 P rp Q1 Q2 Q3).1.toNat + 2 ^ 64 * (lowRow1 P rp Q1 Q2 Q3).2.1.toNat
        + 2 ^ 128 * (lowRow1 P rp Q1 Q2 Q3).2.2.toNat + 2 ^ 192 * k := by
  rcases h0 : umul128 P rp[0]! with ⟨tmp0, uv0⟩
  rcases k0 : addcarry64 false Q1 tmp0 with ⟨d0, w1⟩
  rcases h1 : umul128 P rp[1]! with ⟨tmp1, uv1⟩
  rcases k1 : addcarry64 false tmp1 (d0.toUInt64 + uv0) with ⟨d1, v1⟩
  rcases k2 : addcarry64 false Q2 v1 with ⟨d2, w2⟩
  rcases k3 : addcarry64 d2 (P * rp[2]!) (d1.toUInt64 + uv1) with ⟨d3, v2⟩
  rcases k4 : addcarry64 false Q3 v2 with ⟨d4, w3⟩
  have e0 := umul128_of_eq h0
  have e1 := umul128_of_eq h1
  have f0 := addcarry64_of_eq k0
  have f1 := addcarry64_of_eq k1
  have f2 := addcarry64_of_eq k2
  have f3 := addcarry64_of_eq k3
  have f4 := addcarry64_of_eq k4
  have hu0 := toNat_carry h0 d0
  have hu1 := toNat_carry h1 d1
  have hf : false.toNat = 0 := rfl
  rw [hu0] at f1
  rw [hu1, UInt64.toNat_mul] at f3
  refine ⟨P.toNat * rp[2]!.toNat / 2 ^ 64 + d3.toNat + d4.toNat + P.toNat * rp[3]!.toNat, ?_⟩
  rw [← scaled_eq]
  simp only [lowRow1, scaled, h0, h1, k0, k1, k2, k3, k4]
  omega

theorem lowRow2_eq (P : UInt64) (rp : Words4) (Q2 Q3 : UInt64) : ∃ k,
    Q2.toNat + 2 ^ 64 * Q3.toNat + P.toNat * Words.value rp
      = (lowRow2 P rp Q2 Q3).1.toNat + 2 ^ 64 * (lowRow2 P rp Q2 Q3).2.toNat + 2 ^ 128 * k := by
  rcases h0 : umul128 P rp[0]! with ⟨tmp0, uv0⟩
  rcases k0 : addcarry64 false Q2 tmp0 with ⟨d0, w2⟩
  rcases k1 : addcarry64 false (P * rp[1]!) (d0.toUInt64 + uv0) with ⟨d1, v1⟩
  rcases k2 : addcarry64 false Q3 v1 with ⟨d2, w3⟩
  have e0 := umul128_of_eq h0
  have f0 := addcarry64_of_eq k0
  have f1 := addcarry64_of_eq k1
  have f2 := addcarry64_of_eq k2
  have hu0 := toNat_carry h0 d0
  have hf : false.toNat = 0 := rfl
  rw [hu0, UInt64.toNat_mul] at f1
  refine ⟨P.toNat * rp[1]!.toNat / 2 ^ 64 + d1.toNat + d2.toNat + P.toNat * rp[2]!.toNat
    + 2 ^ 64 * (P.toNat * rp[3]!.toNat), ?_⟩
  rw [← scaled_eq]
  simp only [lowRow2, scaled, h0, k0, k1, k2]
  omega

/-- **The quotient of the reference is the low half of the product.** -/
theorem value_lowProduct (P rp : Words4) :
    Words.value (lowProduct P rp) = Words.value P * Words.value rp % 2 ^ 256 := by
  rcases h0 : lowRow0 P[0]! rp with ⟨a0, a1, a2, a3⟩
  rcases h1 : lowRow1 P[1]! rp a1 a2 a3 with ⟨b1, b2, b3⟩
  rcases h2 : lowRow2 P[2]! rp b2 b3 with ⟨c2, c3⟩
  rcases h3 : addcarry64 false c3 (P[3]! * rp[0]!) with ⟨d, d3⟩
  obtain ⟨k0, e0⟩ := lowRow0_eq P[0]! rp
  obtain ⟨k1, e1⟩ := lowRow1_eq P[1]! rp a1 a2 a3
  obtain ⟨k2, e2⟩ := lowRow2_eq P[2]! rp b2 b3
  have e3 := addcarry64_of_eq h3
  rw [h0] at e0
  rw [h1] at e1
  rw [h2] at e2
  rw [UInt64.toNat_mul, Bool.toNat_false, Nat.add_zero] at e3
  dsimp only at e0 e1 e2
  -- of the last word only its product with the lowest counts
  obtain ⟨k3, e4⟩ : ∃ k,
      P[3]!.toNat * Words.value rp = P[3]!.toNat * rp[0]!.toNat + 2 ^ 64 * k := by
    refine ⟨P[3]!.toNat * (rp[1]!.toNat + rp[2]!.toNat * 2 ^ 64 + rp[3]!.toNat * 2 ^ 128), ?_⟩
    rw [Words.value_four]
    ring
  have hlt := Words.value_four_lt (lowProduct P rp)
  have hvalue : Words.value (lowProduct P rp)
      = a0.toNat + b1.toNat * 2 ^ 64 + c2.toNat * 2 ^ 128 + d3.toNat * 2 ^ 192 := by
    simp only [lowProduct, h0, h1, h2, h3, value_words]
  have hproduct : Words.value P * Words.value rp = P[0]!.toNat * Words.value rp
      + 2 ^ 64 * (P[1]!.toNat * Words.value rp) + 2 ^ 128 * (P[2]!.toNat * Words.value rp)
      + 2 ^ 192 * (P[3]!.toNat * Words.value rp) := by
    rw [Words.value_four P]
    ring
  rw [hvalue] at hlt ⊢
  rw [hproduct]
  omega

/-! ## The two routines -/

theorem words4_ext {v w : Words4} (h : Words.value v = Words.value w) : v = w := by
  have hword : ∀ u : Words4, u[0]!.toNat < 2 ^ 64 ∧ u[1]!.toNat < 2 ^ 64 ∧ u[2]!.toNat < 2 ^ 64 ∧
      u[3]!.toNat < 2 ^ 64 :=
    fun u => ⟨u[0]!.toNat_lt, u[1]!.toNat_lt, u[2]!.toNat_lt, u[3]!.toNat_lt⟩
  obtain ⟨hv0, hv1, hv2, hv3⟩ := hword v
  obtain ⟨hw0, hw1, hw2, hw3⟩ := hword w
  rw [Words.value_four, Words.value_four] at h
  refine Vector.ext fun i hi => ?_
  rw [← getElem!_pos v i hi, ← getElem!_pos w i hi, ← UInt64.toNat_inj]
  match i, hi with
  | 0, _ => omega
  | 1, _ => omega
  | 2, _ => omega
  | 3, _ => omega

theorem words8_ext {v w : Vector UInt64 8} (h : Words.value v = Words.value w) : v = w := by
  have hlow := Words.value_four_lt (lowHalf v)
  have hlow' := Words.value_four_lt (lowHalf w)
  rw [value_halves v, value_halves w] at h
  have hl : lowHalf v = lowHalf w := words4_ext (by omega)
  have hh : highHalf v = highHalf w := words4_ext (by omega)
  have hget : ∀ i : Fin 8, v.get i = w.get i := by
    intro i
    induction i using Fin.addCases (m := 4) (n := 4) with
    | left i => rw [← get_lowHalf, ← get_lowHalf, hl]
    | right i => rw [← get_highHalf, ← get_highHalf, hh]
  exact Vector.ext fun i hi => hget ⟨i, hi⟩

theorem multiply_eq (a b : Words4) : multiply a b = Crypto.multiply a b :=
  words8_ext ((value_multiply a b).trans (Crypto.value_multiply a b).symm)

theorem lowProduct_eq (P rp : Words4) : lowProduct P rp = Crypto.lowProduct P rp :=
  words4_ext ((value_lowProduct P rp).trans (Crypto.value_lowProduct P rp).symm)

/-- **The two routines are one**, on all words. -/
theorem montgomeryMultiplyModOrder_eq (ma mb : Words4) :
    montgomeryMultiplyModOrder ma mb = Crypto.montgomeryMultiplyModOrder ma mb := by
  have hfactor : factorProduct ma mb = Crypto.factorProduct ma mb := by
    rw [factorProduct, Crypto.factorProduct, multiply_eq]
  rw [montgomeryMultiplyModOrder, Crypto.montgomeryMultiplyModOrder, hfactor]
  simp only [lowProduct_eq, multiply_eq]

/-! ## Montgomery form -/

/-- `Montgomery_multiply_mod_order(k, Montgomery_Rprime, k)`, then `(k, ONE, k)`. -/
def modOrder (k : Words4) : Words4 :=
  montgomeryMultiplyModOrder (montgomeryMultiplyModOrder k montgomeryRprime) scalarOne

/-- The product of two scalars: both are brought to Montgomery form, multiplied, and brought
back. -/
def mulModOrder (k h : Words4) : Words4 :=
  let s := montgomeryMultiplyModOrder k montgomeryRprime
  let h := montgomeryMultiplyModOrder h montgomeryRprime
  let s := montgomeryMultiplyModOrder s h
  montgomeryMultiplyModOrder s scalarOne

theorem montgomeryRprime_modEq :
    Words.value montgomeryRprime ≡ 2 ^ 256 * 2 ^ 256 [MOD orderNat] := by
  decide +kernel

theorem montgomeryRprime_lt : Words.value montgomeryRprime < orderNat := by decide +kernel

theorem value_scalarOne : Words.value scalarOne = 1 := by decide +kernel

theorem scalarOne_lt : Words.value scalarOne < orderNat := by decide +kernel

theorem value_montgomeryMultiplyModOrder (ma : Words4) {mb : Words4}
    (hmb : Words.value mb < orderNat) : Words.value (montgomeryMultiplyModOrder ma mb)
      = Montgomery.reduce orderNat (2 ^ 256) smallRPrimeNat (Words.value ma * Words.value mb) := by
  rw [montgomeryMultiplyModOrder_eq]
  exact Crypto.value_montgomeryMultiplyModOrder ma hmb

/-- A factor below the order keeps the product in the range of the reduction. -/
theorem mul_lt_order (ma : Words4) {mb : Words4} (hmb : Words.value mb < orderNat) :
    Words.value ma * Words.value mb < orderNat * 2 ^ 256 := by
  rw [Nat.mul_comm]
  exact Nat.mul_lt_mul'' hmb (Words.value_four_lt ma)

theorem montgomeryMultiplyModOrder_lt (ma : Words4) {mb : Words4}
    (hmb : Words.value mb < orderNat) :
    Words.value (montgomeryMultiplyModOrder ma mb) < orderNat := by
  rw [value_montgomeryMultiplyModOrder ma hmb]
  exact Montgomery.reduce_lt (Nat.two_pow_pos 256) order_bounds.1 (mul_lt_order ma hmb)

/-- **A 256-bit number modulo the order.** -/
theorem value_modOrder (k : Words4) : Words.value (modOrder k) = Words.value k % orderNat := by
  rw [modOrder, value_montgomeryMultiplyModOrder _ scalarOne_lt,
    value_montgomeryMultiplyModOrder k montgomeryRprime_lt, value_scalarOne]
  exact Montgomery.reduce_reduce isNegInverse_order montgomeryRprime_modEq (Nat.two_pow_pos 256)
    order_bounds.1 (mul_lt_order k montgomeryRprime_lt)

/-- **The product of two 256-bit numbers modulo the order.** -/
theorem value_mulModOrder (k h : Words4) :
    Words.value (mulModOrder k h) = Words.value k * Words.value h % orderNat := by
  have hform := montgomeryMultiplyModOrder_lt h montgomeryRprime_lt
  have hproduct := mul_lt_order (montgomeryMultiplyModOrder k montgomeryRprime) hform
  rw [value_montgomeryMultiplyModOrder k montgomeryRprime_lt,
    value_montgomeryMultiplyModOrder h montgomeryRprime_lt] at hproduct
  rw [mulModOrder, value_montgomeryMultiplyModOrder _ scalarOne_lt,
    value_montgomeryMultiplyModOrder _ hform,
    value_montgomeryMultiplyModOrder k montgomeryRprime_lt,
    value_montgomeryMultiplyModOrder h montgomeryRprime_lt, value_scalarOne]
  exact Montgomery.reduce_product isNegInverse_order montgomeryRprime_modEq (Nat.two_pow_pos 256)
    order_bounds.1 hproduct

/-- **Scalars modulo the order**: the routine of the port is that of the reference on all words,
and with it a number and a product are brought below the order. -/
theorem scalars_mod_order :
    (∀ ma mb, montgomeryMultiplyModOrder ma mb = Crypto.montgomeryMultiplyModOrder ma mb) ∧
    (∀ k, Words.value (modOrder k) = Words.value k % orderNat) ∧
    ∀ k h, Words.value (mulModOrder k h) = Words.value k * Words.value h % orderNat :=
  ⟨montgomeryMultiplyModOrder_eq, value_modOrder, value_mulModOrder⟩

end ZkQuorum.Crypto.Stock
