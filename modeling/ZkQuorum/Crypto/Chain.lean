import ZkQuorum.Crypto.Pointers

/-!
# Exponentiation and inversion through pointers (crypto/src/riscv_fourq_verify.c)

`fpexp1251` is one text for both builds: it calls `fpmul1271` and `fpsqr1271`, and these are
compiled differently. `Products` is what it calls, on the states of a build, and
`Products.fpexp1251` the routine over any such pair.

- `Related.fpexp1251` carries a relation between two builds from the products to the chain.
- `products` is the memory on which each product is one store of the limbs that the product on
  values gives; the portable build is this memory with the portable limbs.
- **`fpexp1251_eq`**: the five temporaries hold the powers of the chain, and the last store is
  that of `Crypto.fpexp1251`.
-/

namespace ZkQuorum.Crypto.Pointers

open Memory

/-! ## The routines -/

/-- `fpmul1271` and `fpsqr1271`, on the states of a build. -/
structure Products (σ : Type) where
  fpmul1271 : Nat → Nat → Nat → σ → σ
  fpsqr1271 : Nat → Nat → σ → σ

namespace Products

variable {σ : Type} (o : Products σ)

/-- `for (unsigned i = 0; i < n; i++) fpsqr1271(t, t)`. -/
def squares (n t : Nat) (s : σ) : σ := (o.fpsqr1271 t t)^[n] s

/-- `fpexp1251`. -/
def fpexp1251 (sp a af : Nat) (s : σ) : σ :=
  let t1 := sp
  let t2 := sp + 2
  let t3 := sp + 4
  let t4 := sp + 6
  let t5 := sp + 8
  let s := o.fpsqr1271 a t2 s
  let s := o.fpmul1271 a t2 t2 s
  let s := o.fpsqr1271 t2 t3 s
  let s := o.fpsqr1271 t3 t3 s
  let s := o.fpmul1271 t2 t3 t3 s
  let s := o.fpsqr1271 t3 t4 s
  let s := o.fpsqr1271 t4 t4 s
  let s := o.fpsqr1271 t4 t4 s
  let s := o.fpsqr1271 t4 t4 s
  let s := o.fpmul1271 t3 t4 t4 s
  let s := o.squares 7 t5 (o.fpsqr1271 t4 t5 s)
  let s := o.fpmul1271 t4 t5 t5 s
  let s := o.squares 15 t2 (o.fpsqr1271 t5 t2 s)
  let s := o.fpmul1271 t5 t2 t2 s
  let s := o.squares 31 t1 (o.fpsqr1271 t2 t1 s)
  let s := o.fpmul1271 t2 t1 t1 s
  let s := o.fpmul1271 t1 t2 t1 (o.squares 32 t1 s)
  let s := o.fpmul1271 t5 t1 t1 (o.squares 16 t1 s)
  let s := o.fpmul1271 t4 t1 t1 (o.squares 8 t1 s)
  let s := o.fpmul1271 t3 t1 t1 (o.squares 4 t1 s)
  let s := o.fpsqr1271 t1 t1 s
  o.fpmul1271 a t1 af s

end Products

/-- The products of the portable build. -/
def portable : Products (Memory UInt64) where
  fpmul1271 := fpmul1271
  fpsqr1271 := fpsqr1271

/-- `fpinv1271`, portable. -/
def fpinv1271 (sp a c : Nat) (m : Memory UInt64) : Memory UInt64 :=
  let t := sp
  let m := portable.fpexp1251 (sp + 2) a t m
  let m := fpsqr1271 t t m
  let m := fpsqr1271 t t m
  fpmul1271 a t c m

/-! ## The rows of the chain -/

namespace Products

variable {σ τ : Type} (o : Products σ)

/-- A row of the chain: `x` squared `n + 1` times in `t`, and multiplied by `y`. -/
def row (n x y t : Nat) (s : σ) : σ := o.fpmul1271 y t t (o.squares n t (o.fpsqr1271 x t s))

theorem fpexp1251_rows (sp a af : Nat) (s : σ) :
    o.fpexp1251 sp a af s =
      let s := o.row 0 a a (sp + 2) s
      let s := o.row 1 (sp + 2) (sp + 2) (sp + 4) s
      let s := o.row 3 (sp + 4) (sp + 4) (sp + 6) s
      let s := o.row 7 (sp + 6) (sp + 6) (sp + 8) s
      let s := o.row 15 (sp + 8) (sp + 8) (sp + 2) s
      let s := o.row 31 (sp + 2) (sp + 2) sp s
      let s := o.fpmul1271 sp (sp + 2) sp (o.squares 32 sp s)
      let s := o.fpmul1271 (sp + 8) sp sp (o.squares 16 sp s)
      let s := o.fpmul1271 (sp + 6) sp sp (o.squares 8 sp s)
      let s := o.fpmul1271 (sp + 4) sp sp (o.squares 4 sp s)
      o.fpmul1271 a sp af (o.fpsqr1271 sp sp s) := rfl

variable {o} {o' : Products τ} {R : σ → τ → Prop}

/-- The products of two builds keep a relation between their states. -/
structure Related (R : σ → τ → Prop) (o : Products σ) (o' : Products τ) : Prop where
  mul : ∀ a b c s t, R s t → R (o.fpmul1271 a b c s) (o'.fpmul1271 a b c t)
  sqr : ∀ a c s t, R s t → R (o.fpsqr1271 a c s) (o'.fpsqr1271 a c t)

theorem Related.squares (h : Related R o o') (n p : Nat) {s : σ} {t : τ} (hst : R s t) :
    R (o.squares n p s) (o'.squares n p t) := by
  induction n generalizing s t with
  | zero => exact hst
  | succ n ih => exact ih (h.sqr p p s t hst)

theorem Related.row (h : Related R o o') (n x y p : Nat) {s : σ} {t : τ} (hst : R s t) :
    R (o.row n x y p s) (o'.row n x y p t) :=
  h.mul _ _ _ _ _ (h.squares n p (h.sqr _ _ _ _ hst))

/-- The chain keeps what its products keep. -/
theorem Related.fpexp1251 (h : Related R o o') (sp a af : Nat) {s : σ} {t : τ} (hst : R s t) :
    R (o.fpexp1251 sp a af s) (o'.fpexp1251 sp a af t) := by
  rw [fpexp1251_rows, fpexp1251_rows]
  have h2 := h.row 0 a a (sp + 2) hst
  have h3 := h.row 1 (sp + 2) (sp + 2) (sp + 4) h2
  have h4 := h.row 3 (sp + 4) (sp + 4) (sp + 6) h3
  have h5 := h.row 7 (sp + 6) (sp + 6) (sp + 8) h4
  have h2 := h.row 15 (sp + 8) (sp + 8) (sp + 2) h5
  have h1 := h.row 31 (sp + 2) (sp + 2) sp h2
  have h1 := h.mul sp (sp + 2) sp _ _ (h.squares 32 sp h1)
  have h1 := h.mul (sp + 8) sp sp _ _ (h.squares 16 sp h1)
  have h1 := h.mul (sp + 6) sp sp _ _ (h.squares 8 sp h1)
  have h1 := h.mul (sp + 4) sp sp _ _ (h.squares 4 sp h1)
  exact h.mul a sp af _ _ (h.sqr sp sp _ _ h1)

end Products

/-! ## The limbs of a build -/

/-- The limbs that `fpmul1271` stores. -/
def mulLimbs (build : Build) (x y : Limbs) : Limbs :=
  match build with
  | .portable => Raw.fpmul1271 x y
  | .bigint2 => (Felm.ofFp ((Limbs.value x : Fp) * (Limbs.value y : Fp))).limbs

/-- The limbs that `fpsqr1271` stores. -/
def sqrLimbs (build : Build) (x : Limbs) : Limbs :=
  match build with
  | .portable => Raw.fpsqr1271 x
  | .bigint2 => (Felm.ofFp ((Limbs.value x : Fp) * (Limbs.value x : Fp))).limbs

theorem mulLimbs_eq (build : Build) (x y : Felm) :
    mulLimbs build x.limbs y.limbs = (Crypto.fpmul1271 build x y).limbs := by
  cases build with
  | portable => rfl
  | bigint2 => rfl

theorem sqrLimbs_eq (build : Build) (x : Felm) :
    sqrLimbs build x.limbs = (Crypto.fpsqr1271 build x).limbs := by
  cases build with
  | portable => rfl
  | bigint2 => rfl

/-- A memory on which each product is one store. -/
def products (build : Build) : Products (Memory UInt64) where
  fpmul1271 a b c m := m.setPair c (mulLimbs build (m.pair a) (m.pair b))
  fpsqr1271 a c m := m.setPair c (sqrLimbs build (m.pair a))

theorem portable_eq : portable = products .portable := rfl

section Stores

variable {build : Build} {m : Memory UInt64} {a b c t : Nat} {x y : Felm}

theorem products_mul (ha : m.pair a = x.limbs) (hb : m.pair b = y.limbs) :
    (products build).fpmul1271 a b c m = m.setPair c (Crypto.fpmul1271 build x y).limbs := by
  rw [← mulLimbs_eq, ← ha, ← hb]
  rfl

theorem products_sqr (ha : m.pair a = x.limbs) :
    (products build).fpsqr1271 a c m = m.setPair c (Crypto.fpsqr1271 build x).limbs := by
  rw [← sqrLimbs_eq, ← ha]
  rfl

theorem products_squares (n : Nat) (ht : m.pair t = x.limbs) :
    (products build).squares n t m = m.setPair t (sqrn build n x).limbs := by
  induction n generalizing m x with
  | zero =>
    show m = m.setPair t x.limbs
    rw [← ht, setPair_pair]
  | succ n ih =>
    show (products build).squares n t ((products build).fpsqr1271 t t m) = _
    rw [products_sqr ht, ih (pair_setPair m t _), setPair_setPair]
    rfl

/-- A power in `t`, from the square of `x` and a factor that is not in `t`. -/
theorem products_row (n : Nat) (ha : m.pair a = x.limbs) (hb : m.pair b = y.limbs)
    (hbt : b + 2 ≤ t ∨ t + 2 ≤ b) :
    (products build).row n a b t m = m.setPair t
      (Crypto.fpmul1271 build y (sqrn build n (Crypto.fpsqr1271 build x))).limbs := by
  rw [Products.row, products_sqr ha, products_squares n (pair_setPair m t _), setPair_setPair,
    products_mul (y := sqrn build n (Crypto.fpsqr1271 build x)) (x := y) _ (pair_setPair m t _),
    setPair_setPair]
  rw [pair_setPair_of_apart _ _ hbt, hb]

/-- The squares of what was stored last. -/
theorem products_squares_next (n t : Nat) (m : Memory UInt64) (v : Felm) :
    (products build).squares n t (m.setPair t v.limbs) = m.setPair t (sqrn build n v).limbs := by
  rw [products_squares n (pair_setPair m t _), setPair_setPair]

/-- A factor that is not in `t`, on either side. -/
theorem products_mul_next (v : Felm) (hb : m.pair b = y.limbs) (hbt : b + 2 ≤ t ∨ t + 2 ≤ b) :
    (products build).fpmul1271 b t t (m.setPair t v.limbs)
        = m.setPair t (Crypto.fpmul1271 build y v).limbs ∧
      (products build).fpmul1271 t b t (m.setPair t v.limbs)
        = m.setPair t (Crypto.fpmul1271 build v y).limbs := by
  have hkeep : (m.setPair t v.limbs).pair b = y.limbs := by
    rw [pair_setPair_of_apart _ _ hbt, hb]
  have ht : (m.setPair t v.limbs).pair t = v.limbs := pair_setPair m t _
  rw [products_mul hkeep ht, products_mul ht hkeep, setPair_setPair, setPair_setPair]
  exact ⟨rfl, rfl⟩

/-- The next temporary, from the one that was stored last. -/
theorem products_row_next (n : Nat) {t t' : Nat} (htt' : t + 2 ≤ t' ∨ t' + 2 ≤ t)
    (m : Memory UInt64) (v : Felm) :
    (products build).row n t t t' (m.setPair t v.limbs) = (m.setPair t v.limbs).setPair t'
      (Crypto.fpmul1271 build v (sqrn build n (Crypto.fpsqr1271 build v))).limbs :=
  products_row n (pair_setPair m t _) (pair_setPair m t _) htt'

/-- **`fpexp1251` through pointers**: it writes to its own words, and stores the power last. -/
theorem fpexp1251_eq {sp : Nat} (ha : a + 2 ≤ sp) (h : m.pair a = x.limbs) (af : Nat) :
    ∃ m', Changes sp af 2 m m' ∧
      (products build).fpexp1251 sp a af m = m'.setPair af (Crypto.fpexp1251 build x).limbs := by
  rw [Products.fpexp1251_rows]
  dsimp only
  -- the temporaries `t2`, `t3`, `t4`, `t5`, and `t2` again
  rw [products_row 0 h h (.inl (by omega))]
  generalize h2 : Crypto.fpmul1271 build x (sqrn build 0 (Crypto.fpsqr1271 build x)) = v2
  rw [products_row_next 1 (.inl (Nat.le_refl _))]
  generalize h3 : Crypto.fpmul1271 build v2 (sqrn build 1 (Crypto.fpsqr1271 build v2)) = v3
  rw [products_row_next 3 (.inl (Nat.le_refl _))]
  generalize h4 : Crypto.fpmul1271 build v3 (sqrn build 3 (Crypto.fpsqr1271 build v3)) = v4
  rw [products_row_next 7 (.inl (Nat.le_refl _))]
  generalize h5 : Crypto.fpmul1271 build v4 (sqrn build 7 (Crypto.fpsqr1271 build v4)) = v5
  rw [products_row_next 15 (.inr (by omega))]
  generalize h6 : Crypto.fpmul1271 build v5 (sqrn build 15 (Crypto.fpsqr1271 build v5)) = v6
  rw [products_row_next 31 (.inr (Nat.le_refl _))]
  -- `t1` climbs to the exponent and the others stay
  generalize hM : ((((m.setPair (sp + 2) v2.limbs).setPair (sp + 4) v3.limbs).setPair (sp + 6)
    v4.limbs).setPair (sp + 8) v5.limbs).setPair (sp + 2) v6.limbs = M
  have hp : M.pair a = x.limbs ∧ M.pair (sp + 2) = v6.limbs ∧ M.pair (sp + 4) = v3.limbs ∧
      M.pair (sp + 6) = v4.limbs ∧ M.pair (sp + 8) = v5.limbs := by
    subst hM
    simp (disch := omega) only [pair_setPair, pair_setPair_of_apart, h, and_self]
  obtain ⟨ha', ht2, ht3, ht4, ht5⟩ := hp
  rw [products_squares_next, (products_mul_next _ ht2 (.inr (by omega))).2, products_squares_next,
    (products_mul_next _ ht5 (.inr (by omega))).1, products_squares_next,
    (products_mul_next _ ht4 (.inr (by omega))).1, products_squares_next,
    (products_mul_next _ ht3 (.inr (by omega))).1, products_sqr (pair_setPair M sp _),
    setPair_setPair]
  generalize h1 : Crypto.fpsqr1271 build _ = v1
  have ha1 : (M.setPair sp v1.limbs).pair a = x.limbs := by
    rw [pair_setPair_of_apart _ _ (.inl ha), ha']
  refine ⟨M.setPair sp v1.limbs, ?_, ?_⟩
  · subst hM
    have h0 : Changes sp af 2 m m := Changes.refl m
    exact (((((h0.setPair (by omega)).setPair (by omega)).setPair (by omega)).setPair
      (by omega)).setPair (by omega)).setPair (by omega)
  · rw [products_mul ha1 (pair_setPair M sp _), ← h1, ← h6, ← h5, ← h4, ← h3, ← h2]
    rfl

/-- **`fpinv1271` through pointers**, in the portable build: the exponent is p - 2. -/
theorem fpinv1271_eq {sp : Nat} (ha : a + 2 ≤ sp) (h : m.pair a = x.limbs) (c : Nat) :
    ∃ m', Changes sp c 2 m m' ∧
      fpinv1271 sp a c m = m'.setPair c (Crypto.fpinv1271 .portable x).limbs := by
  obtain ⟨m', hchanges, hexp⟩ :=
    @fpexp1251_eq .portable m a x (sp + 2) (by omega) h sp
  have ha' : m'.pair a = x.limbs := by
    rw [hchanges.pair (by omega) (.inl ha), h]
  rw [fpinv1271, portable_eq, hexp]
  show ∃ m₁, Changes sp c 2 m m₁ ∧ (products .portable).fpmul1271 a sp c
    ((products .portable).fpsqr1271 sp sp ((products .portable).fpsqr1271 sp sp _)) = _
  rw [products_sqr (pair_setPair m' sp _), setPair_setPair, products_sqr (pair_setPair m' sp _),
    setPair_setPair]
  generalize ht : Crypto.fpsqr1271 .portable (Crypto.fpsqr1271 .portable _) = t
  have ha1 : (m'.setPair sp t.limbs).pair a = x.limbs := by
    rw [pair_setPair_of_apart _ _ (.inl ha), ha']
  refine ⟨m'.setPair sp t.limbs, ?_, ?_⟩
  · have h0 : Changes sp c 2 m m' := fun q hq => hchanges ⟨Nat.lt_add_right 2 hq.1, .inl hq.1⟩
    exact h0.setPair (.inl (Nat.le_refl _))
  · rw [products_mul ha1 (pair_setPair m' sp _), ← ht]
    rfl

end Stores

/-! ## What they compute -/

/-- A store that ends a routine. -/
theorem stores_setPair {sp c : Nat} {m m' : Memory UInt64} (h : Changes sp c 2 m m') (x : Felm) :
    Stores felm sp c m (m'.setPair c x.limbs) x.toFp := by
  obtain ⟨hrange, hresidue, -⟩ := felm_setPair m' sp c x
  exact ⟨hrange, hresidue, h.setPair (.inr ⟨Nat.le_refl c, Nat.le_refl (c + 2)⟩)⟩

theorem computes_fpexp1251 : Computes₁ felm (· ^ (2 ^ 125 - 1)) portable.fpexp1251 := by
  intro sp a c m hasp _ _ ha
  obtain ⟨m', hchanges, hexp⟩ := @fpexp1251_eq .portable m a (felmAt ha) sp hasp rfl c
  have hstores := stores_setPair hchanges (Crypto.fpexp1251 .portable (felmAt ha))
  rw [toFp_fpexp1251] at hstores
  rw [portable_eq, hexp]
  exact hstores

theorem computes_fpinv1271 : Computes₁ felm (·⁻¹) fpinv1271 := by
  intro sp a c m hasp _ _ ha
  obtain ⟨m', hchanges, hinv⟩ := @fpinv1271_eq m a (felmAt ha) sp hasp rfl c
  have hstores := stores_setPair hchanges (Crypto.fpinv1271 .portable (felmAt ha))
  rw [toFp_fpinv1271] at hstores
  rw [hinv]
  exact hstores

end ZkQuorum.Crypto.Pointers
