import Mathlib.Algebra.Polynomial.Roots
import Mathlib.Tactic.LinearCombination
import Mathlib.Tactic.Ring

/-!
# Identities on a quartic curve

On the curve p^2 = Q(s) with Q of degree at most 4, every polynomial in s and p is a(s) + b(s) p.
When s counts 1 and p counts 2, the weight of the polynomial bounds the degrees of a and b p, so
that it is 0 on the curve as soon as it is 0 over enough values of s.

- `Expression`: a polynomial in s and p, as what it computes in every type with `+`, `-` and `*`;
- `Over q`: the values over one s, pairs with p^2 = q;
- `Weighted Q`: the pairs (a, b) of polynomials with a weight that bounds them;
- **`Expression.eq_zero`**: an expression of weight n that is 0 over n + 1 values of s is 0 on
  the whole curve. The values over one s can be computed in any type that maps to the field.
-/

namespace QuarticCurve

open Polynomial

/-! ## Expressions -/

/-- A map that keeps the three operations. -/
structure Respects {α β : Type} [Add α] [Sub α] [Mul α] [Add β] [Sub β] [Mul β]
    (f : α → β) : Prop where
  map_add : ∀ x y, f (x + y) = f x + f y
  map_sub : ∀ x y, f (x - y) = f x - f y
  map_mul : ∀ x y, f (x * y) = f x * f y

/-- A polynomial in s and p with constants from `C`. -/
structure Expression (C : Type) where
  run : {α : Type} → [Add α] → [Sub α] → [Mul α] → (C → α) → α → α → α
  natural : ∀ {α β : Type} [Add α] [Sub α] [Mul α] [Add β] [Sub β] [Mul β] {f : α → β},
    Respects f → ∀ c s p, f (run c s p) = run (fun a => f (c a)) (f s) (f p)

/-- A bound of a degree. -/
structure Weight where
  val : Nat

instance : Add Weight := ⟨fun v w => ⟨max v.val w.val⟩⟩

instance : Sub Weight := ⟨fun v w => ⟨max v.val w.val⟩⟩

instance : Mul Weight := ⟨fun v w => ⟨v.val + w.val⟩⟩

/-- The weight of an expression: constants count 0, s counts 1 and p counts 2. -/
def Expression.weight {C : Type} (e : Expression C) : Nat :=
  (e.run (fun _ => Weight.mk 0) (Weight.mk 1) (Weight.mk 2)).val

/-! ## The values over one s -/

/-- re + im p, where p^2 = q. -/
@[ext]
structure Over {α : Type} (q : α) where
  re : α
  im : α
deriving DecidableEq

namespace Over

section Operations

variable {α : Type} {q : α}

instance [Add α] : Add (Over q) := ⟨fun x y => ⟨x.re + y.re, x.im + y.im⟩⟩

instance [Sub α] : Sub (Over q) := ⟨fun x y => ⟨x.re - y.re, x.im - y.im⟩⟩

instance [Add α] [Mul α] : Mul (Over q) :=
  ⟨fun x y => ⟨x.re * y.re + q * (x.im * y.im), x.re * y.im + x.im * y.re⟩⟩

instance [Zero α] : Zero (Over q) := ⟨⟨0, 0⟩⟩

/-- A constant, or a value of s. -/
def const [Zero α] (a : α) : Over q := ⟨a, 0⟩

/-- p. -/
def root [Zero α] [One α] : Over q := ⟨0, 1⟩

/-- The value of an expression over s. -/
def eval [Add α] [Sub α] [Mul α] [Zero α] [One α] {C : Type} (q : α) (e : Expression C)
    (c : C → α) (s : α) : Over q :=
  e.run (fun a => const (c a)) (const s) root

end Operations

section Map

variable {α β : Type} [Add α] [Sub α] [Mul α] [Zero α] [One α] [Add β] [Sub β] [Mul β] [Zero β]
  [One β] {f : α → β}

/-- A value with its components mapped. -/
def map (f : α → β) {q : α} (x : Over q) : Over (f q) := ⟨f x.re, f x.im⟩

omit [Zero α] [One α] [Zero β] [One β] in
theorem respects_map (hf : Respects f) (q : α) : Respects (map f : Over q → Over (f q)) where
  map_add x y := Over.ext (hf.map_add _ _) (hf.map_add _ _)
  map_sub x y := Over.ext (hf.map_sub _ _) (hf.map_sub _ _)
  map_mul x y := by
    apply Over.ext
    · show f (x.re * y.re + q * (x.im * y.im)) = f x.re * f y.re + f q * (f x.im * f y.im)
      rw [hf.map_add, hf.map_mul, hf.map_mul, hf.map_mul]
    · show f (x.re * y.im + x.im * y.re) = f x.re * f y.im + f x.im * f y.re
      rw [hf.map_add, hf.map_mul, hf.map_mul]

/-- The values over one s, computed in another type. -/
theorem map_eval (hf : Respects f) (hzero : f 0 = 0) (hone : f 1 = 1) {C : Type}
    (e : Expression C) (c : C → α) (q s : α) :
    (eval q e c s).map f = eval (f q) e (fun a => f (c a)) (f s) := by
  have hconst : ∀ a : α, (const a : Over q).map f = const (f a) := fun a => Over.ext rfl hzero
  have hroot : (root : Over q).map f = root := Over.ext hzero hone
  rw [eval, e.natural (respects_map hf q), hconst, hroot]
  simp only [hconst]
  rfl

end Map

end Over

/-! ## Polynomial coefficients -/

variable {K : Type} [Field K]

/-- A polynomial of degree at most 4. -/
structure Quartic (K : Type) [Field K] where
  poly : K[X]
  degree_le : poly.degree ≤ 4

/-- re(s) + im(s) p, with a bound of the degrees. -/
structure Weighted (Q : Quartic K) where
  re : K[X]
  im : K[X]
  weight : Nat
  re_degree : re.degree ≤ weight
  im_degree : im.degree + 2 ≤ weight

namespace Weighted

variable {Q : Quartic K}

/-- A degree with a number added, of a sum or a difference. -/
theorem degree_add_le_max {a b c : K[X]} {k : WithBot Nat} {v w : Nat}
    (hdegree : c.degree ≤ max a.degree b.degree) (ha : a.degree + k ≤ v) (hb : b.degree + k ≤ w) :
    c.degree + k ≤ (max v w : Nat) := by
  have hmax : ((max v w : Nat) : WithBot Nat) = max (v : WithBot Nat) w := WithBot.coe_max v w
  rw [hmax, le_max_iff]
  rcases le_max_iff.mp hdegree with h | h
  · exact .inl ((add_le_add_left h k).trans ha)
  · exact .inr ((add_le_add_left h k).trans hb)

theorem re_degree_op (f g : Weighted Q) (op : K[X] → K[X] → K[X])
    (hop : ∀ a b, (op a b).degree ≤ max a.degree b.degree) :
    (op f.re g.re).degree ≤ (max f.weight g.weight : Nat) := by
  have h := degree_add_le_max (k := 0) (hop f.re g.re)
    (by rw [add_zero]; exact f.re_degree) (by rw [add_zero]; exact g.re_degree)
  rwa [add_zero] at h

theorem im_degree_op (f g : Weighted Q) (op : K[X] → K[X] → K[X])
    (hop : ∀ a b, (op a b).degree ≤ max a.degree b.degree) :
    (op f.im g.im).degree + 2 ≤ (max f.weight g.weight : Nat) :=
  degree_add_le_max (hop f.im g.im) f.im_degree g.im_degree

/-- The sum and the difference. -/
def combine (f g : Weighted Q) (op : K[X] → K[X] → K[X])
    (hop : ∀ a b, (op a b).degree ≤ max a.degree b.degree) : Weighted Q where
  re := op f.re g.re
  im := op f.im g.im
  weight := max f.weight g.weight
  re_degree := re_degree_op f g op hop
  im_degree := im_degree_op f g op hop

noncomputable instance : Add (Weighted Q) := ⟨fun f g => f.combine g (· + ·) degree_add_le⟩

noncomputable instance : Sub (Weighted Q) := ⟨fun f g => f.combine g (· - ·) degree_sub_le⟩

/-- The degree of a product of two coefficients of p, with p^2 in its place. -/
theorem degree_root_mul (f g : Weighted Q) :
    (Q.poly * (f.im * g.im)).degree ≤ (f.weight + g.weight : Nat) := by
  have hfactors : (Q.poly * (f.im * g.im)).degree ≤ 4 + (f.im.degree + g.im.degree) :=
    (degree_mul_le _ _).trans (add_le_add Q.degree_le (degree_mul_le _ _))
  have hsplit : (4 : WithBot Nat) + (f.im.degree + g.im.degree)
      = (f.im.degree + 2) + (g.im.degree + 2) := by
    rw [add_add_add_comm, two_add_two_eq_four, add_comm]
  rw [hsplit] at hfactors
  exact_mod_cast hfactors.trans (add_le_add f.im_degree g.im_degree)

/-- The degree of a product of a coefficient of p and one without it. -/
theorem degree_mul_add_two {a b : K[X]} {v w : Nat} (ha : a.degree ≤ v) (hb : b.degree + 2 ≤ w) :
    (a * b).degree + 2 ≤ (v + w : Nat) := by
  have hfactors : (a * b).degree + 2 ≤ a.degree + (b.degree + 2) := by
    rw [← add_assoc]
    exact add_le_add_left (degree_mul_le a b) 2
  exact_mod_cast hfactors.trans (add_le_add ha hb)

theorem re_degree_mul (f g : Weighted Q) :
    (f.re * g.re + Q.poly * (f.im * g.im)).degree ≤ (f.weight + g.weight : Nat) := by
  refine (degree_add_le _ _).trans (max_le ?_ (degree_root_mul f g))
  exact_mod_cast (degree_mul_le f.re g.re).trans (add_le_add f.re_degree g.re_degree)

theorem im_degree_mul (f g : Weighted Q) :
    (f.re * g.im + f.im * g.re).degree + 2 ≤ (f.weight + g.weight : Nat) := by
  have hleft := degree_mul_add_two f.re_degree g.im_degree
  have hright := degree_mul_add_two g.re_degree f.im_degree
  rw [mul_comm g.re, Nat.add_comm g.weight] at hright
  have h := degree_add_le_max (degree_add_le _ _) hleft hright
  rwa [max_self] at h

noncomputable instance : Mul (Weighted Q) where
  mul f g :=
    { re := f.re * g.re + Q.poly * (f.im * g.im)
      im := f.re * g.im + f.im * g.re
      weight := f.weight + g.weight
      re_degree := re_degree_mul f g
      im_degree := im_degree_mul f g }

theorem degree_zero_add_two_le (w : Nat) : (0 : K[X]).degree + 2 ≤ w := by
  rw [degree_zero, WithBot.bot_add]
  exact bot_le

/-- A polynomial in s. -/
noncomputable def ofPoly (a : K[X]) (w : Nat) (h : a.degree ≤ w) : Weighted Q :=
  { re := a
    im := 0
    weight := w
    re_degree := h
    im_degree := degree_zero_add_two_le w }

noncomputable def const (a : K) : Weighted Q := ofPoly (C a) 0 degree_C_le

noncomputable def s : Weighted Q := ofPoly X 1 degree_X_le

theorem degree_zero_le_two : (0 : K[X]).degree ≤ (2 : Nat) := by
  rw [degree_zero]
  exact bot_le

theorem degree_one_add_two_le : (1 : K[X]).degree + 2 ≤ (2 : Nat) := by
  rw [degree_one, zero_add]
  rfl

noncomputable def p : Weighted Q :=
  { re := 0
    im := 1
    weight := 2
    re_degree := degree_zero_le_two
    im_degree := degree_one_add_two_le }

/-! ### Values -/

/-- The value over t. -/
noncomputable def fibre (t : K) (f : Weighted Q) : Over (Q.poly.eval t) :=
  ⟨f.re.eval t, f.im.eval t⟩

/-- The value at a point. -/
noncomputable def value (t u : K) (f : Weighted Q) : K := f.re.eval t + f.im.eval t * u

def toWeight (f : Weighted Q) : Weight := ⟨f.weight⟩

theorem respects_fibre (t : K) : Respects (fibre t : Weighted Q → Over (Q.poly.eval t)) where
  map_add _ _ := Over.ext eval_add eval_add
  map_sub f g := Over.ext (eval_sub f.re g.re t) (eval_sub f.im g.im t)
  map_mul f g := by
    apply Over.ext
    · show eval t (f.re * g.re + Q.poly * (f.im * g.im)) = _
      rw [eval_add, eval_mul, eval_mul, eval_mul]
      rfl
    · show eval t (f.re * g.im + f.im * g.re) = _
      rw [eval_add, eval_mul, eval_mul]
      rfl

theorem respects_value {t u : K} (hu : u * u = Q.poly.eval t) :
    Respects (value t u : Weighted Q → K) where
  map_add f g := by
    show eval t (f.re + g.re) + eval t (f.im + g.im) * u = _
    rw [eval_add, eval_add, value, value]
    ring
  map_sub f g := by
    show eval t (f.re - g.re) + eval t (f.im - g.im) * u = _
    rw [eval_sub, eval_sub, value, value]
    ring
  map_mul f g := by
    show eval t (f.re * g.re + Q.poly * (f.im * g.im)) + eval t (f.re * g.im + f.im * g.re) * u = _
    rw [eval_add, eval_add, eval_mul, eval_mul, eval_mul, eval_mul, eval_mul, value, value]
    linear_combination -(f.im.eval t * g.im.eval t) * hu

theorem respects_toWeight : Respects (toWeight : Weighted Q → Weight) :=
  ⟨fun _ _ => rfl, fun _ _ => rfl, fun _ _ => rfl⟩

/-- A pair that is 0 over more values of s than its weight is 0 everywhere. -/
theorem eq_zero_of_fibre (f : Weighted Q) {n : Nat} (hn : f.weight ≤ n) {t : Fin (n + 1) → K}
    (ht : t.Injective) (h : ∀ i, f.fibre (t i) = 0) : f.re = 0 ∧ f.im = 0 := by
  have hcard : ∀ a : K[X], a.degree ≤ n → a.natDegree < Fintype.card (Fin (n + 1)) := by
    intro a ha
    rw [Fintype.card_fin]
    exact Nat.lt_succ_of_le (natDegree_le_of_degree_le ha)
  have hre : f.re.degree ≤ n := f.re_degree.trans (by exact_mod_cast hn)
  have him : f.im.degree ≤ n := by
    have htwo : f.im.degree ≤ f.im.degree + 2 := le_add_of_nonneg_right (by decide)
    exact htwo.trans (f.im_degree.trans (by exact_mod_cast hn))
  constructor
  · exact eq_zero_of_natDegree_lt_card_of_eval_eq_zero _ ht (fun i => congrArg Over.re (h i))
      (hcard _ hre)
  · exact eq_zero_of_natDegree_lt_card_of_eval_eq_zero _ ht (fun i => congrArg Over.im (h i))
      (hcard _ him)

end Weighted

/-! ## The identity test -/

section Test

variable {Q : Quartic K} {C : Type}

/-- An expression with polynomial coefficients. -/
noncomputable def Expression.weighted (e : Expression C) (Q : Quartic K) (c : C → K) : Weighted Q :=
  e.run (fun a => .const (c a)) .s .p

theorem weight_weighted (e : Expression C) (Q : Quartic K) (c : C → K) :
    (e.weighted Q c).weight = e.weight :=
  congrArg Weight.val (e.natural Weighted.respects_toWeight _ _ _)

theorem fibre_weighted (e : Expression C) (Q : Quartic K) (c : C → K) (t : K) :
    (e.weighted Q c).fibre t = Over.eval (Q.poly.eval t) e c t := by
  have hconst : ∀ a : K, (Weighted.const a : Weighted Q).fibre t = Over.const a := by
    intro a
    exact Over.ext eval_C eval_zero
  have hs : (Weighted.s : Weighted Q).fibre t = Over.const t := Over.ext eval_X eval_zero
  have hp : (Weighted.p : Weighted Q).fibre t = Over.root := Over.ext eval_zero eval_one
  rw [Expression.weighted, e.natural (Weighted.respects_fibre t), hs, hp]
  simp only [hconst]
  rfl

theorem value_weighted (e : Expression C) (Q : Quartic K) (c : C → K) {t u : K}
    (hu : u * u = Q.poly.eval t) : (e.weighted Q c).value t u = e.run c t u := by
  have hconst : ∀ a : K, (Weighted.const a : Weighted Q).value t u = a := by
    intro a
    show eval t (Polynomial.C a) + eval t 0 * u = a
    rw [eval_C, eval_zero, zero_mul, add_zero]
  have hs : (Weighted.s : Weighted Q).value t u = t := by
    show eval t X + eval t 0 * u = t
    rw [eval_X, eval_zero, zero_mul, add_zero]
  have hp : (Weighted.p : Weighted Q).value t u = u := by
    show eval t 0 + eval t 1 * u = u
    rw [eval_zero, eval_one, one_mul, zero_add]
  rw [Expression.weighted, e.natural (Weighted.respects_value hu), hs, hp]
  simp only [hconst]

/-- **An expression of weight n that is 0 over n + 1 values of s is 0 on the curve.** -/
theorem Expression.eq_zero (e : Expression C) {c : C → K} {n : Nat} (hn : e.weight ≤ n)
    {t : Fin (n + 1) → K} (ht : t.Injective)
    (h : ∀ i, Over.eval (Q.poly.eval (t i)) e c (t i) = 0) {s p : K}
    (hp : p * p = Q.poly.eval s) : e.run c s p = 0 := by
  have hweight : (e.weighted Q c).weight ≤ n := by
    rw [weight_weighted]
    exact hn
  obtain ⟨hre, him⟩ := (e.weighted Q c).eq_zero_of_fibre hweight ht
    (fun i => by rw [fibre_weighted, h i])
  rw [← value_weighted e Q c hp, Weighted.value, hre, him, eval_zero, zero_mul, add_zero]

end Test

end QuarticCurve
