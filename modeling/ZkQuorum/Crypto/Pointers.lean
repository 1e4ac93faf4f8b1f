import ZkQuorum.Crypto.Fp2
import ZkQuorum.Lib.Memory

/-!
# Field arithmetic through pointers (crypto/src/riscv_fourq_verify.c, portable build)

The field routines of the source read and write limbs in memory, and the point operations
hand them outputs that are inputs. Here each routine is a function of the memory and of its
pointers, with one `Memory.set` for each store; `sp` is the first word above the objects of
the caller, where a routine has its own arrays.

Each routine stores what its counterpart on values computes (`fpadd1271_eq`, ...), as long
as an output is an input or apart from it. **`field_arithmetic`** says what that is: the
operations of GF(p) and GF(p^2), on components that stay in `[0, p]`.
-/

namespace ZkQuorum.Crypto.Pointers

open Memory

/-! ## The routines -/

/-- `mod1271`. -/
def mod1271 (a : Nat) (m : Memory UInt64) : Memory UInt64 :=
  let (b, s) := subborrow64 false (m a) 0xFFFFFFFFFFFFFFFF
  let m := m.set a s
  let (_, s) := subborrow64 b (m (a + 1)) 0x7FFFFFFFFFFFFFFF
  let m := m.set (a + 1) s
  let mask : UInt64 := (0 : UInt64) - (m (a + 1) >>> 63)
  let (b, s) := addcarry64 false (m a) mask
  let m := m.set a s
  let (_, s) := addcarry64 b (m (a + 1)) (0x7FFFFFFFFFFFFFFF &&& mask)
  m.set (a + 1) s

/-- `fpadd1271`. -/
def fpadd1271 (a b c : Nat) (m : Memory UInt64) : Memory UInt64 :=
  let (cc, s) := addcarry64 false (m a) (m b)
  let m := m.set c s
  let (_, s) := addcarry64 cc (m (a + 1)) (m (b + 1))
  let m := m.set (c + 1) s
  let (cc, s) := addcarry64 false (m c) (m (c + 1) >>> 63)
  let m := m.set c s
  let (_, s) := addcarry64 cc (m (c + 1) &&& 0x7FFFFFFFFFFFFFFF) 0
  m.set (c + 1) s

/-- `fpsub1271`. -/
def fpsub1271 (a b c : Nat) (m : Memory UInt64) : Memory UInt64 :=
  let (bb, s) := subborrow64 false (m a) (m b)
  let m := m.set c s
  let (_, s) := subborrow64 bb (m (a + 1)) (m (b + 1))
  let m := m.set (c + 1) s
  let (bb, s) := subborrow64 false (m c) (m (c + 1) >>> 63)
  let m := m.set c s
  let (_, s) := subborrow64 bb (m (c + 1) &&& 0x7FFFFFFFFFFFFFFF) 0
  m.set (c + 1) s

/-- `fpneg1271`. -/
def fpneg1271 (a : Nat) (m : Memory UInt64) : Memory UInt64 :=
  let m := m.set a (~~~m a)
  m.set (a + 1) (0x7FFFFFFFFFFFFFFF - m (a + 1))

/-- `fpmul1271`: both inputs are read before the output is written. -/
def fpmul1271 (a b c : Nat) (m : Memory UInt64) : Memory UInt64 :=
  let r := Raw.fpmul1271 (m.pair a) (m.pair b)
  m.setPair c r

/-- `fpsqr1271`. -/
def fpsqr1271 (a c : Nat) (m : Memory UInt64) : Memory UInt64 :=
  let r := Raw.fpsqr1271 (m.pair a)
  m.setPair c r

/-- `fp2neg1271`. -/
def fp2neg1271 (a : Nat) (m : Memory UInt64) : Memory UInt64 :=
  let m := fpneg1271 a m
  fpneg1271 (a + 2) m

/-- `fp2add1271`. -/
def fp2add1271 (a b c : Nat) (m : Memory UInt64) : Memory UInt64 :=
  let m := fpadd1271 a b c m
  fpadd1271 (a + 2) (b + 2) (c + 2) m

/-- `fp2sub1271`. -/
def fp2sub1271 (a b c : Nat) (m : Memory UInt64) : Memory UInt64 :=
  let m := fpsub1271 a b c m
  fpsub1271 (a + 2) (b + 2) (c + 2) m

/-- `fp2sqr1271`. -/
def fp2sqr1271 (sp a c : Nat) (m : Memory UInt64) : Memory UInt64 :=
  let t1 := sp
  let t2 := sp + 2
  let t3 := sp + 4
  let m := fpadd1271 a (a + 2) t1 m
  let m := fpsub1271 a (a + 2) t2 m
  let m := fpmul1271 a (a + 2) t3 m
  let m := fpmul1271 t1 t2 c m
  fpadd1271 t3 t3 (c + 2) m

/-- `fp2mul1271`. -/
def fp2mul1271 (sp a b c : Nat) (m : Memory UInt64) : Memory UInt64 :=
  let t1 := sp
  let t2 := sp + 2
  let t3 := sp + 4
  let t4 := sp + 6
  let m := fpmul1271 a b t1 m
  let m := fpmul1271 (a + 2) (b + 2) t2 m
  let m := fpadd1271 a (a + 2) t3 m
  let m := fpadd1271 b (b + 2) t4 m
  let m := fpsub1271 t1 t2 c m
  let m := fpmul1271 t3 t4 t3 m
  let m := fpsub1271 t3 t1 t3 m
  fpsub1271 t3 t2 (c + 2) m

/-! ## What they store -/

section Store

variable {a b c : Nat} (m : Memory UInt64)

theorem mod1271_eq : mod1271 a m = m.setPair a (Raw.mod1271 (m.pair a)) := by
  have hlow := Nat.succ_ne_self a
  simp only [mod1271, Raw.mod1271, pair, set_ne _ _ hlow, set_ne _ _ hlow.symm, set_same]
  exact set_set_setPair m a (_, _) _ _

theorem fpadd1271_eq (ha : SameOrApart 2 c a) (hb : SameOrApart 2 c b) :
    fpadd1271 a b c m = m.setPair c (Raw.fpadd1271 (m.pair a) (m.pair b)) := by
  have hlow := Nat.succ_ne_self c
  -- the first store leaves the high limbs of both inputs
  have ha' : a + 1 ≠ c := by omega
  have hb' : b + 1 ≠ c := by omega
  simp only [fpadd1271, Raw.fpadd1271, pair, set_ne _ _ hlow, set_ne _ _ hlow.symm, set_same,
    set_ne _ _ ha', set_ne _ _ hb']
  exact set_set_setPair m c (_, _) _ _

theorem fpsub1271_eq (ha : SameOrApart 2 c a) (hb : SameOrApart 2 c b) :
    fpsub1271 a b c m = m.setPair c (Raw.fpsub1271 (m.pair a) (m.pair b)) := by
  have hlow := Nat.succ_ne_self c
  have ha' : a + 1 ≠ c := by omega
  have hb' : b + 1 ≠ c := by omega
  simp only [fpsub1271, Raw.fpsub1271, pair, set_ne _ _ hlow, set_ne _ _ hlow.symm, set_same,
    set_ne _ _ ha', set_ne _ _ hb']
  exact set_set_setPair m c (_, _) _ _

theorem fpneg1271_eq : fpneg1271 a m = m.setPair a (Raw.fpneg1271 (m.pair a)) := by
  simp only [fpneg1271, Raw.fpneg1271, pair, set_ne _ _ (Nat.succ_ne_self a), setPair]

theorem fp2add1271_eq (ha : SameOrApart 4 c a) (hb : SameOrApart 4 c b) :
    fp2add1271 a b c m = (m.setPair c (Raw.fpadd1271 (m.pair a) (m.pair b))).setPair (c + 2)
      (Raw.fpadd1271 (m.pair (a + 2)) (m.pair (b + 2))) := by
  simp (disch := omega) only [fp2add1271, fpadd1271_eq, pair_setPair_of_apart]

theorem fp2sub1271_eq (ha : SameOrApart 4 c a) (hb : SameOrApart 4 c b) :
    fp2sub1271 a b c m = (m.setPair c (Raw.fpsub1271 (m.pair a) (m.pair b))).setPair (c + 2)
      (Raw.fpsub1271 (m.pair (a + 2)) (m.pair (b + 2))) := by
  simp (disch := omega) only [fp2sub1271, fpsub1271_eq, pair_setPair_of_apart]

theorem fp2neg1271_eq : fp2neg1271 a m = (m.setPair a (Raw.fpneg1271 (m.pair a))).setPair (a + 2)
    (Raw.fpneg1271 (m.pair (a + 2))) := by
  simp (disch := omega) only [fp2neg1271, fpneg1271_eq, pair_setPair_of_apart]

variable {sp : Nat}

/-- Both inputs are read before the output is written, so that any overlap will do. -/
theorem pair_fp2sqr1271 (ha : a + 4 ≤ sp) (hc : c + 4 ≤ sp) :
    let t1 := Raw.fpadd1271 (m.pair a) (m.pair (a + 2))
    let t2 := Raw.fpsub1271 (m.pair a) (m.pair (a + 2))
    let t3 := Raw.fpmul1271 (m.pair a) (m.pair (a + 2))
    (fp2sqr1271 sp a c m).pair c = Raw.fpmul1271 t1 t2 ∧
      (fp2sqr1271 sp a c m).pair (c + 2) = Raw.fpadd1271 t3 t3 := by
  constructor
  · simp (disch := omega) only [fp2sqr1271, fpadd1271_eq,
      fpsub1271_eq, fpmul1271, pair_setPair, pair_setPair_of_apart]
  · simp (disch := omega) only [fp2sqr1271, fpadd1271_eq,
      fpsub1271_eq, fpmul1271, pair_setPair, pair_setPair_of_apart]

theorem pair_fp2mul1271 (ha : a + 4 ≤ sp) (hb : b + 4 ≤ sp) (hc : c + 4 ≤ sp) :
    let t1 := Raw.fpmul1271 (m.pair a) (m.pair b)
    let t2 := Raw.fpmul1271 (m.pair (a + 2)) (m.pair (b + 2))
    let t3 := Raw.fpadd1271 (m.pair a) (m.pair (a + 2))
    let t4 := Raw.fpadd1271 (m.pair b) (m.pair (b + 2))
    (fp2mul1271 sp a b c m).pair c = Raw.fpsub1271 t1 t2 ∧
      (fp2mul1271 sp a b c m).pair (c + 2)
        = Raw.fpsub1271 (Raw.fpsub1271 (Raw.fpmul1271 t3 t4) t1) t2 := by
  constructor
  · simp (disch := omega) only [fp2mul1271, fpadd1271_eq,
      fpsub1271_eq, fpmul1271, pair_setPair, pair_setPair_of_apart]
  · simp (disch := omega) only [fp2mul1271, fpadd1271_eq,
      fpsub1271_eq, fpmul1271, pair_setPair, pair_setPair_of_apart]

end Store

/-! ## Operands -/

/-- What a pointer to field elements stands for: how many words, when they are in range, and
which element they are. -/
structure Operand (K : Type) where
  size : Nat
  InRange : Memory UInt64 → Nat → Prop
  residue : Memory UInt64 → Nat → K

/-- A pointer to a `felm_t`. -/
def felm : Operand Fp where
  size := 2
  InRange m p := Limbs.value (m.pair p) ≤ p1271
  residue m p := (Limbs.value (m.pair p) : Fp)

/-- A pointer to an `f2elm_t`. -/
def f2elm : Operand Fp2 where
  size := 4
  InRange m p := felm.InRange m p ∧ felm.InRange m (p + 2)
  residue m p := ⟨felm.residue m p, felm.residue m (p + 2)⟩

section Operand

variable {m m' : Memory UInt64} {p : Nat}

/-- The words of a field element. -/
theorem felm_of_pair {x : Felm} (h : m.pair p = x.limbs) :
    felm.InRange m p ∧ felm.residue m p = x.toFp := by
  constructor
  · show Limbs.value (m.pair p) ≤ p1271
    rw [h]
    exact x.le
  · show (Limbs.value (m.pair p) : Fp) = x.toFp
    rw [h]
    rfl

theorem f2elm_of_pair {x : F2elm} (h0 : m.pair p = x.c0.limbs) (h1 : m.pair (p + 2) = x.c1.limbs) :
    f2elm.InRange m p ∧ f2elm.residue m p = x.toFp2 := by
  obtain ⟨hr0, hv0⟩ := felm_of_pair h0
  obtain ⟨hr1, hv1⟩ := felm_of_pair h1
  exact ⟨⟨hr0, hr1⟩, Fp2.ext hv0 hv1⟩

/-- The field element at a pointer. -/
def felmAt (h : felm.InRange m p) : Felm := ⟨m.pair p, h⟩

def f2elmAt (h : f2elm.InRange m p) : F2elm := ⟨felmAt h.1, felmAt h.2⟩

theorem limbs_fpadd1271 (x y : Felm) :
    (Crypto.fpadd1271 x y).limbs = Raw.fpadd1271 x.limbs y.limbs := rfl

theorem limbs_fpsub1271 (x y : Felm) :
    (Crypto.fpsub1271 x y).limbs = Raw.fpsub1271 x.limbs y.limbs := rfl

theorem limbs_fpmul1271 (x y : Felm) :
    (Crypto.fpmul1271 .portable x y).limbs = Raw.fpmul1271 x.limbs y.limbs := rfl

end Operand

/-- A routine has stored `v` at `c`, and changed nothing else below its own words. -/
structure Stores {K : Type} (T : Operand K) (sp c : Nat) (m m' : Memory UInt64) (v : K) : Prop where
  inRange : T.InRange m' c
  residue : T.residue m' c = v
  frame : Changes sp c T.size m m'

/-- A routine on two inputs and an output: where the output is an input or apart from it, and all
lie below the routine's own words, it stores `f` of the inputs. -/
def Computes₂ {K : Type} (T : Operand K) (f : K → K → K)
    (op : Nat → Nat → Nat → Nat → Memory UInt64 → Memory UInt64) : Prop :=
  ∀ sp a b c m, a + T.size ≤ sp → b + T.size ≤ sp → c + T.size ≤ sp →
    SameOrApart T.size c a → SameOrApart T.size c b → T.InRange m a → T.InRange m b →
    Stores T sp c m (op sp a b c m) (f (T.residue m a) (T.residue m b))

/-- A routine on an input and an output. -/
def Computes₁ {K : Type} (T : Operand K) (f : K → K)
    (op : Nat → Nat → Nat → Memory UInt64 → Memory UInt64) : Prop :=
  ∀ sp a c m, a + T.size ≤ sp → c + T.size ≤ sp → SameOrApart T.size c a → T.InRange m a →
    Stores T sp c m (op sp a c m) (f (T.residue m a))

/-- A routine that replaces its operand. -/
def ComputesInPlace {K : Type} (T : Operand K) (f : K → K)
    (op : Nat → Memory UInt64 → Memory UInt64) : Prop :=
  ∀ sp a m, a + T.size ≤ sp → T.InRange m a → Stores T sp a m (op a m) (f (T.residue m a))

/-- A stored field element. -/
theorem felm_setPair (m : Memory UInt64) (sp c : Nat) (x : Felm) :
    Stores felm sp c m (m.setPair c x.limbs) x.toFp := by
  obtain ⟨hrange, hresidue⟩ := felm_of_pair (pair_setPair m c x.limbs)
  exact ⟨hrange, hresidue, (Changes.refl m).setPair (.inr ⟨Nat.le_refl c, Nat.le_refl (c + 2)⟩)⟩

/-- The two components stored one after the other. -/
theorem f2elm_setPair (m : Memory UInt64) (sp c : Nat) (x : F2elm) :
    Stores f2elm sp c m ((m.setPair c x.c0.limbs).setPair (c + 2) x.c1.limbs) x.toFp2 := by
  have hlow : ((m.setPair c x.c0.limbs).setPair (c + 2) x.c1.limbs).pair c = x.c0.limbs := by
    rw [pair_setPair_of_apart _ _ (by omega), pair_setPair]
  obtain ⟨hrange, hresidue⟩ := f2elm_of_pair hlow (pair_setPair _ (c + 2) x.c1.limbs)
  have hframe : Changes sp c 4 m (m.setPair c x.c0.limbs) := (Changes.refl m).setPair (by omega)
  exact ⟨hrange, hresidue, hframe.setPair (by omega)⟩

/-! ## What the routines compute -/

theorem computes_fpadd1271 : Computes₂ felm (· + ·) fun _ => fpadd1271 := by
  intro sp a b c m _ _ _ hca hcb ha hb
  have h := felm_setPair m sp c (Crypto.fpadd1271 (felmAt ha) (felmAt hb))
  rw [toFp_fpadd1271] at h
  show Stores felm sp c m (fpadd1271 a b c m) _
  rw [fpadd1271_eq m hca hcb]
  exact h

theorem computes_fpsub1271 : Computes₂ felm (· - ·) fun _ => fpsub1271 := by
  intro sp a b c m _ _ _ hca hcb ha hb
  have h := felm_setPair m sp c (Crypto.fpsub1271 (felmAt ha) (felmAt hb))
  rw [toFp_fpsub1271] at h
  show Stores felm sp c m (fpsub1271 a b c m) _
  rw [fpsub1271_eq m hca hcb]
  exact h

theorem computes_fpmul1271 : Computes₂ felm (· * ·) fun _ => fpmul1271 := by
  intro sp a b c m _ _ _ _ _ ha hb
  have h := felm_setPair m sp c (Crypto.fpmul1271 .portable (felmAt ha) (felmAt hb))
  rw [toFp_fpmul1271] at h
  exact h

theorem computes_fpsqr1271 : Computes₁ felm (fun x => x * x) fun _ => fpsqr1271 := by
  intro sp a c m _ _ _ ha
  have h := felm_setPair m sp c (Crypto.fpsqr1271 .portable (felmAt ha))
  rw [toFp_fpsqr1271] at h
  exact h

theorem computes_fp2add1271 : Computes₂ f2elm (· + ·) fun _ => fp2add1271 := by
  intro sp a b c m _ _ _ hca hcb ha hb
  have h := f2elm_setPair m sp c (Crypto.fp2add1271 (f2elmAt ha) (f2elmAt hb))
  rw [toFp2_fp2add1271] at h
  show Stores f2elm sp c m (fp2add1271 a b c m) _
  rw [fp2add1271_eq m hca hcb]
  exact h

theorem computes_fp2sub1271 : Computes₂ f2elm (· - ·) fun _ => fp2sub1271 := by
  intro sp a b c m _ _ _ hca hcb ha hb
  have h := f2elm_setPair m sp c (Crypto.fp2sub1271 (f2elmAt ha) (f2elmAt hb))
  rw [toFp2_fp2sub1271] at h
  show Stores f2elm sp c m (fp2sub1271 a b c m) _
  rw [fp2sub1271_eq m hca hcb]
  exact h

section Frames

variable {top p n a b c : Nat} {m m' : Memory UInt64}

/-- The stores of the routines on `felm_t`, as steps of a longer routine. -/
theorem changes_fpadd1271 (h : Changes top p n m m') (ha : SameOrApart 2 c a)
    (hb : SameOrApart 2 c b) (hc : top ≤ c ∨ (p ≤ c ∧ c + 2 ≤ p + n)) :
    Changes top p n m (fpadd1271 a b c m') := by
  rw [fpadd1271_eq m' ha hb]
  exact h.setPair hc

theorem changes_fpsub1271 (h : Changes top p n m m') (ha : SameOrApart 2 c a)
    (hb : SameOrApart 2 c b) (hc : top ≤ c ∨ (p ≤ c ∧ c + 2 ≤ p + n)) :
    Changes top p n m (fpsub1271 a b c m') := by
  rw [fpsub1271_eq m' ha hb]
  exact h.setPair hc

theorem changes_fpmul1271 (h : Changes top p n m m')
    (hc : top ≤ c ∨ (p ≤ c ∧ c + 2 ≤ p + n)) : Changes top p n m (fpmul1271 a b c m') :=
  h.setPair hc

theorem changes_fp2sqr1271 (sp : Nat) (ha : a + 4 ≤ sp) (hc : c + 4 ≤ sp) (m : Memory UInt64) :
    Changes sp c 4 m (fp2sqr1271 sp a c m) := by
  have h0 : Changes sp c 4 m m := Changes.refl m
  have h1 := changes_fpadd1271 (c := sp) h0 (a := a) (b := a + 2) (.inr (by omega))
    (.inr (by omega)) (by omega)
  have h2 := changes_fpsub1271 (c := sp + 2) h1 (a := a) (b := a + 2) (.inr (by omega))
    (.inr (by omega)) (by omega)
  have h3 := changes_fpmul1271 (c := sp + 4) h2 (a := a) (b := a + 2) (by omega)
  have h4 := changes_fpmul1271 (c := c) h3 (a := sp) (b := sp + 2) (by omega)
  exact changes_fpadd1271 (c := c + 2) h4 (.inr (by omega)) (.inr (by omega)) (by omega)

theorem changes_fp2mul1271 (sp : Nat) (ha : a + 4 ≤ sp) (hb : b + 4 ≤ sp) (hc : c + 4 ≤ sp)
    (m : Memory UInt64) : Changes sp c 4 m (fp2mul1271 sp a b c m) := by
  have h0 : Changes sp c 4 m m := Changes.refl m
  have h1 := changes_fpmul1271 (c := sp) h0 (a := a) (b := b) (by omega)
  have h2 := changes_fpmul1271 (c := sp + 2) h1 (a := a + 2) (b := b + 2) (by omega)
  have h3 := changes_fpadd1271 (c := sp + 4) h2 (a := a) (b := a + 2) (.inr (by omega))
    (.inr (by omega)) (by omega)
  have h4 := changes_fpadd1271 (c := sp + 6) h3 (a := b) (b := b + 2) (.inr (by omega))
    (.inr (by omega)) (by omega)
  have h5 := changes_fpsub1271 (c := c) h4 (a := sp) (b := sp + 2) (.inr (by omega))
    (.inr (by omega)) (by omega)
  have h6 := changes_fpmul1271 (c := sp + 4) h5 (a := sp + 4) (b := sp + 6) (by omega)
  have h7 := changes_fpsub1271 (c := sp + 4) h6 (a := sp + 4) (b := sp) (.inl rfl)
    (.inr (by omega)) (by omega)
  exact changes_fpsub1271 (c := c + 2) h7 (.inr (by omega)) (.inr (by omega)) (by omega)

end Frames

theorem computes_fp2sqr1271 : Computes₁ f2elm (fun x => x * x) fp2sqr1271 := by
  intro sp a c m hasp hcsp _ ha
  obtain ⟨h0, h1⟩ := pair_fp2sqr1271 m hasp hcsp
  have h := f2elm_of_pair (m := fp2sqr1271 sp a c m) (p := c)
    (x := Crypto.fp2sqr1271 .portable (f2elmAt ha))
  simp only [Crypto.fp2sqr1271, limbs_fpadd1271, limbs_fpsub1271, limbs_fpmul1271] at h
  obtain ⟨hrange, hresidue⟩ := h h0 h1
  refine ⟨hrange, ?_, changes_fp2sqr1271 sp hasp hcsp m⟩
  rw [hresidue]
  exact toFp2_fp2sqr1271 .portable (f2elmAt ha)

theorem computes_fp2mul1271 : Computes₂ f2elm (· * ·) fp2mul1271 := by
  intro sp a b c m hasp hbsp hcsp _ _ ha hb
  obtain ⟨h0, h1⟩ := pair_fp2mul1271 m hasp hbsp hcsp
  have h := f2elm_of_pair (m := fp2mul1271 sp a b c m) (p := c)
    (x := Crypto.fp2mul1271 .portable (f2elmAt ha) (f2elmAt hb))
  simp only [Crypto.fp2mul1271, limbs_fpadd1271, limbs_fpsub1271, limbs_fpmul1271] at h
  obtain ⟨hrange, hresidue⟩ := h h0 h1
  refine ⟨hrange, ?_, changes_fp2mul1271 sp hasp hbsp hcsp m⟩
  rw [hresidue]
  exact toFp2_fp2mul1271 .portable (f2elmAt ha) (f2elmAt hb)

theorem computes_fpneg1271 : ComputesInPlace felm (- ·) fpneg1271 := by
  intro sp a m _ ha
  rw [fpneg1271_eq]
  have h := felm_setPair m sp a (Crypto.fpneg1271 (felmAt ha))
  rw [toFp_fpneg1271] at h
  exact h

theorem computes_fp2neg1271 : ComputesInPlace f2elm (- ·) fp2neg1271 := by
  intro sp a m _ ha
  rw [fp2neg1271_eq]
  have h := f2elm_setPair m sp a (Crypto.fp2neg1271 (f2elmAt ha))
  rw [toFp2_fp2neg1271] at h
  exact h

theorem computes_mod1271 : ComputesInPlace felm id mod1271 := by
  intro sp a m _ ha
  rw [mod1271_eq]
  have h := felm_setPair m sp a (Crypto.mod1271 (felmAt ha))
  rw [toFp_mod1271] at h
  exact h

/-- `mod1271` leaves the representative below p. -/
theorem value_mod1271 {m : Memory UInt64} {a : Nat} (ha : felm.InRange m a) :
    Limbs.value ((mod1271 a m).pair a) = Limbs.value (m.pair a) % p1271 := by
  rw [mod1271_eq, pair_setPair]
  exact Raw.value_mod1271 ha

/-- **The field routines compute in GF(p) and GF(p^2)**, through pointers and in place: on
operands with components in `[0, p]` they store components in `[0, p]` that are congruent to
the result, and change nothing else that the caller can name. -/
theorem field_arithmetic :
    (Computes₂ felm (· + ·) fun _ => fpadd1271) ∧
    (Computes₂ felm (· - ·) fun _ => fpsub1271) ∧
    ComputesInPlace felm (- ·) fpneg1271 ∧
    (Computes₂ felm (· * ·) fun _ => fpmul1271) ∧
    (Computes₁ felm (fun x => x * x) fun _ => fpsqr1271) ∧
    ComputesInPlace felm id mod1271 ∧
    (∀ m a, felm.InRange m a →
      Limbs.value ((mod1271 a m).pair a) = Limbs.value (m.pair a) % p1271) ∧
    (Computes₂ f2elm (· + ·) fun _ => fp2add1271) ∧
    (Computes₂ f2elm (· - ·) fun _ => fp2sub1271) ∧
    Computes₂ f2elm (· * ·) fp2mul1271 ∧
    Computes₁ f2elm (fun x => x * x) fp2sqr1271 ∧
    ComputesInPlace f2elm (- ·) fp2neg1271 :=
  ⟨computes_fpadd1271, computes_fpsub1271, computes_fpneg1271, computes_fpmul1271,
    computes_fpsqr1271, computes_mod1271, fun _ _ => value_mod1271, computes_fp2add1271,
    computes_fp2sub1271, computes_fp2mul1271, computes_fp2sqr1271, computes_fp2neg1271⟩

end ZkQuorum.Crypto.Pointers
