import Mathlib.Algebra.Field.Basic
import Mathlib.Algebra.Group.Even
import Mathlib.Algebra.Ring.Hom.Defs
import Mathlib.Tactic.FieldSimp
import Mathlib.Tactic.LinearCombination
import Mathlib.Tactic.Ring

/-!
# Complete twisted Edwards curves

The curve -x^2 + y^2 = 1 + d x^2 y^2 over a field in which -1 is a square and d is not.
Its addition law has no exceptions (`den_ne_zero`), so that the points are a group
(`Point.instAddCommGroup`) with neutral element (0, 1) and -(x, y) = (-x, y).

- `addX`, `addY`: the affine addition law;
- `Point.x_eq_zero_iff`: the points with x = 0 are (0, 1) and (0, -1);
- `eq_or_eq_neg`: two points with the same y are equal or opposite.
-/

namespace Edwards

variable {K : Type} [Field K]

/-- The curve equation. -/
def OnCurve (d x y : K) : Prop := y * y - x * x = 1 + d * (x * x) * (y * y)

/-- The x coordinate of a sum. -/
def addX (d x₁ y₁ x₂ y₂ : K) : K := (x₁ * y₂ + y₁ * x₂) / (1 + d * x₁ * x₂ * y₁ * y₂)

/-- The y coordinate of a sum. -/
def addY (d x₁ y₁ x₂ y₂ : K) : K := (y₁ * y₂ + x₁ * x₂) / (1 - d * x₁ * x₂ * y₁ * y₂)

/-- The field and the parameter for which the addition law is complete. -/
class Complete (d : K) : Prop where
  two_ne_zero : (2 : K) ≠ 0
  neg_one : IsSquare (-1 : K)
  nonsquare : ¬ IsSquare d

section Law

variable {d x₁ y₁ x₂ y₂ x₃ y₃ : K}

/-- A square root of d, if one of the denominators were 0. -/
theorem isSquare_of_root {u v w : K} (hw : w ≠ 0) (h : u * u = d * (v * v) * (w * w)) (hv : v ≠ 0) :
    IsSquare d := by
  refine ⟨u / (v * w), ?_⟩
  field_simp
  linear_combination -h

/-- **The addition law is complete**: its denominators do not vanish on the curve. -/
theorem den_ne_zero [hd : Complete d] (h₁ : OnCurve d x₁ y₁) (h₂ : OnCurve d x₂ y₂) :
    1 + d * x₁ * x₂ * y₁ * y₂ ≠ 0 ∧ 1 - d * x₁ * x₂ * y₁ * y₂ ≠ 0 := by
  obtain ⟨i, hi⟩ := hd.neg_one
  -- with e = d x1 x2 y1 y2 both factors of 1 - e^2 are excluded at once
  have key : (d * x₁ * x₂ * y₁ * y₂) * (d * x₁ * x₂ * y₁ * y₂) ≠ 1 := by
    intro he
    unfold OnCurve at h₁ h₂
    have hx₁y₁ : x₁ * y₁ ≠ 0 := by
      intro h
      have hzero : d * x₁ * x₂ * y₁ * y₂ = 0 := by linear_combination d * x₂ * y₂ * h
      rw [hzero, mul_zero] at he
      exact zero_ne_one he
    have hy₂ : y₂ ≠ 0 := by
      rintro rfl
      rw [mul_zero, mul_zero] at he
      exact zero_ne_one he
    have hplus : i * x₂ + y₂ = 0 := by
      by_contra hw
      refine hd.nonsquare (isSquare_of_root (u := i * x₁ + d * x₁ * x₂ * y₁ * y₂ * y₁) hw ?_ hx₁y₁)
      linear_combination (y₁ * y₁) * he + h₁ - d * (x₁ * y₁) * (x₁ * y₁) * h₂ - x₁ * x₁ * hi
        + d * (x₁ * y₁) * (x₁ * y₁) * (x₂ * x₂) * hi - he
    have hminus : i * x₂ - y₂ = 0 := by
      by_contra hw
      refine hd.nonsquare (isSquare_of_root (u := i * x₁ - d * x₁ * x₂ * y₁ * y₂ * y₁) hw ?_ hx₁y₁)
      linear_combination (y₁ * y₁) * he + h₁ - d * (x₁ * y₁) * (x₁ * y₁) * h₂ - x₁ * x₁ * hi
        + d * (x₁ * y₁) * (x₁ * y₁) * (x₂ * x₂) * hi - he
    have htwo : 2 * y₂ = 0 := by linear_combination hplus - hminus
    exact (mul_ne_zero hd.two_ne_zero hy₂) htwo
  constructor
  · intro h
    apply key
    linear_combination (d * x₁ * x₂ * y₁ * y₂ - 1) * h
  · intro h
    apply key
    linear_combination -(d * x₁ * x₂ * y₁ * y₂ + 1) * h

/-- The factor of x^2 in the curve equation does not vanish. -/
theorem one_add_ne_zero [hd : Complete d] (y : K) : 1 + d * (y * y) ≠ 0 := by
  obtain ⟨i, hi⟩ := hd.neg_one
  intro h
  have hy : y ≠ 0 := by
    rintro rfl
    rw [mul_zero, mul_zero, add_zero] at h
    exact one_ne_zero h
  refine hd.nonsquare ⟨i / y, ?_⟩
  field_simp
  linear_combination h + hi

/-- The points with a given y are opposite. -/
theorem eq_or_eq_neg [Complete d] (h₁ : OnCurve d x₁ y₁) (h₂ : OnCurve d x₂ y₁) :
    x₁ = x₂ ∨ x₁ = -x₂ := by
  unfold OnCurve at h₁ h₂
  apply mul_self_eq_mul_self_iff.mp
  apply mul_left_cancel₀ (one_add_ne_zero (d := d) y₁)
  linear_combination h₂ - h₁

/-- The denominator of `addX` when its first point is a quotient. -/
theorem addX_den {a b p q x y : K} (hp : p ≠ 0) (hq : q ≠ 0) :
    1 + d * (a / p) * x * (b / q) * y = (p * q + d * a * b * x * y) / (p * q) := by
  field_simp

/-- `addX` when its first point is a quotient. -/
theorem addX_div {a b p q x y : K} (hp : p ≠ 0) (hq : q ≠ 0) : addX d (a / p) (b / q) x y
    = (a * q * y + b * p * x) / (p * q + d * a * b * x * y) := by
  have hnum : a / p * y + b / q * x = (a * q * y + b * p * x) / (p * q) := by
    field_simp
  rw [addX, hnum, addX_den hp hq, div_div_div_cancel_right₀ (mul_ne_zero hp hq)]

theorem addX_comm : addX d x₁ y₁ x₂ y₂ = addX d x₂ y₂ x₁ y₁ := by
  have hnum : x₁ * y₂ + y₁ * x₂ = x₂ * y₁ + y₂ * x₁ := by ring
  have hden : d * x₁ * x₂ * y₁ * y₂ = d * x₂ * x₁ * y₂ * y₁ := by ring
  rw [addX, hnum, hden, ← addX]

theorem addY_comm : addY d x₁ y₁ x₂ y₂ = addY d x₂ y₂ x₁ y₁ := by
  have hnum : y₁ * y₂ + x₁ * x₂ = y₂ * y₁ + x₂ * x₁ := by ring
  have hden : d * x₁ * x₂ * y₁ * y₂ = d * x₂ * x₁ * y₂ * y₁ := by ring
  rw [addY, hnum, hden, ← addY]

/-- The sum of two points of the curve is on the curve. -/
theorem onCurve_add [Complete d] (h₁ : OnCurve d x₁ y₁) (h₂ : OnCurve d x₂ y₂) :
    OnCurve d (addX d x₁ y₁ x₂ y₂) (addY d x₁ y₁ x₂ y₂) := by
  obtain ⟨hp, hm⟩ := den_ne_zero h₁ h₂
  unfold OnCurve addX addY at *
  generalize he : d * x₁ * x₂ * y₁ * y₂ = e at hp hm ⊢
  field_simp
  subst he
  grind

/-- The numerators and denominators of the two sums of three points agree on the curve. -/
theorem addX_cross (h₁ : OnCurve d x₁ y₁) (h₂ : OnCurve d x₂ y₂) (h₃ : OnCurve d x₃ y₃) :
    ((x₁ * y₂ + y₁ * x₂) * (1 - d * x₁ * x₂ * y₁ * y₂) * y₃
        + (y₁ * y₂ + x₁ * x₂) * (1 + d * x₁ * x₂ * y₁ * y₂) * x₃)
      * ((1 + d * x₂ * x₃ * y₂ * y₃) * (1 - d * x₂ * x₃ * y₂ * y₃)
        + d * (x₂ * y₃ + y₂ * x₃) * (y₂ * y₃ + x₂ * x₃) * x₁ * y₁)
    = ((x₂ * y₃ + y₂ * x₃) * (1 - d * x₂ * x₃ * y₂ * y₃) * y₁
        + (y₂ * y₃ + x₂ * x₃) * (1 + d * x₂ * x₃ * y₂ * y₃) * x₁)
      * ((1 + d * x₁ * x₂ * y₁ * y₂) * (1 - d * x₁ * x₂ * y₁ * y₂)
        + d * (x₁ * y₂ + y₁ * x₂) * (y₁ * y₂ + x₁ * x₂) * x₃ * y₃) := by
  unfold OnCurve at h₁ h₂ h₃
  -- s, p and m stand for x y, x^2 + y^2 and d x^2 y^2 at each point
  let s₁ := x₁ * y₁
  let s₂ := x₂ * y₂
  let s₃ := x₃ * y₃
  let p₁ := x₁ * x₁ + y₁ * y₁
  let p₂ := x₂ * x₂ + y₂ * y₂
  let p₃ := x₃ * x₃ + y₃ * y₃
  let m₁ := y₁ * y₁ - x₁ * x₁ - 1
  let m₂ := y₂ * y₂ - x₂ * x₂ - 1
  let S := x₁ * y₂ * y₃ + y₁ * x₂ * y₃ + y₁ * y₂ * x₃ + x₁ * x₂ * x₃
  let U := x₁ * y₂ * y₃ + y₁ * x₂ * y₃ - y₁ * y₂ * x₃ - x₁ * x₂ * x₃
  let W := x₁ * y₂ * y₃ - y₁ * x₂ * y₃ - y₁ * y₂ * x₃ + x₁ * x₂ * x₃
  linear_combination -(d * s₂) * ((S * s₂ - U * (s₂ * p₃ + s₃ * p₂) + W * s₃ * d * (s₂ * s₂)) * h₁
    + (U * s₁ * d * (s₃ * s₃) + W * s₃ * m₁) * h₂
    + (U * s₁ * m₂ - S * s₂ - W * (s₁ * p₂ + s₂ * p₁)) * h₃)

/-- The x coordinate of a sum of three points. -/
theorem addX_assoc [Complete d] (h₁ : OnCurve d x₁ y₁) (h₂ : OnCurve d x₂ y₂)
    (h₃ : OnCurve d x₃ y₃) :
    addX d (addX d x₁ y₁ x₂ y₂) (addY d x₁ y₁ x₂ y₂) x₃ y₃
      = addX d x₁ y₁ (addX d x₂ y₂ x₃ y₃) (addY d x₂ y₂ x₃ y₃) := by
  obtain ⟨hp, hq⟩ := den_ne_zero h₁ h₂
  obtain ⟨hp', hq'⟩ := den_ne_zero h₂ h₃
  have hl := (den_ne_zero (onCurve_add h₁ h₂) h₃).1
  have hr := (den_ne_zero (onCurve_add h₂ h₃) h₁).1
  have hden := addX_den (d := d) (a := x₁ * y₂ + y₁ * x₂) (b := y₁ * y₂ + x₁ * x₂) (x := x₃)
    (y := y₃) hp hq
  have hden' := addX_den (d := d) (a := x₂ * y₃ + y₂ * x₃) (b := y₂ * y₃ + x₂ * x₃) (x := x₁)
    (y := y₁) hp' hq'
  calc addX d (addX d x₁ y₁ x₂ y₂) (addY d x₁ y₁ x₂ y₂) x₃ y₃ = _ := addX_div hp hq
    _ = _ := by
      rw [div_eq_div_iff (div_ne_zero_iff.mp (hden ▸ hl)).1 (div_ne_zero_iff.mp (hden' ▸ hr)).1]
      exact addX_cross h₁ h₂ h₃
    _ = addX d (addX d x₂ y₂ x₃ y₃) (addY d x₂ y₂ x₃ y₃) x₁ y₁ := (addX_div hp' hq').symm
    _ = _ := addX_comm

/-- Adding the point (i, 0), which takes (x, y) to (i y, i x), turns y coordinates into x
coordinates. -/
theorem addX_turn {i : K} (hi : i * i = -1) :
    addX d x₁ y₁ (i * y₂) (i * x₂) = i * addY d x₁ y₁ x₂ y₂ := by
  have hnum : x₁ * (i * x₂) + y₁ * (i * y₂) = i * (y₁ * y₂ + x₁ * x₂) := by ring
  have hden : 1 + d * x₁ * (i * y₂) * y₁ * (i * x₂) = 1 - d * x₁ * x₂ * y₁ * y₂ := by
    linear_combination d * x₁ * x₂ * y₁ * y₂ * hi
  rw [addX, addY, hnum, hden, mul_div_assoc]

theorem addY_turn {i : K} (hi : i * i = -1) :
    addY d x₁ y₁ (i * y₂) (i * x₂) = i * addX d x₁ y₁ x₂ y₂ := by
  have hnum : y₁ * (i * x₂) + x₁ * (i * y₂) = i * (x₁ * y₂ + y₁ * x₂) := by ring
  have hden : 1 - d * x₁ * (i * y₂) * y₁ * (i * x₂) = 1 + d * x₁ * x₂ * y₁ * y₂ := by
    linear_combination -(d * x₁ * x₂ * y₁ * y₂) * hi
  rw [addX, addY, hnum, hden, mul_div_assoc]

theorem onCurve_turn {i : K} (hi : i * i = -1) (h : OnCurve d x₁ y₁) :
    OnCurve d (i * y₁) (i * x₁) := by
  unfold OnCurve at *
  linear_combination h + (x₁ * x₁ - y₁ * y₁ - d * (x₁ * x₁) * (y₁ * y₁) * (i * i - 1)) * hi

/-- The y coordinate of a sum of three points. -/
theorem addY_assoc [hd : Complete d] (h₁ : OnCurve d x₁ y₁) (h₂ : OnCurve d x₂ y₂)
    (h₃ : OnCurve d x₃ y₃) :
    addY d (addX d x₁ y₁ x₂ y₂) (addY d x₁ y₁ x₂ y₂) x₃ y₃
      = addY d x₁ y₁ (addX d x₂ y₂ x₃ y₃) (addY d x₂ y₂ x₃ y₃) := by
  obtain ⟨i, hi'⟩ := hd.neg_one
  have hi : i * i = -1 := hi'.symm
  have hne : i ≠ 0 := by
    rintro rfl
    rw [mul_zero] at hi
    exact neg_ne_zero.mpr one_ne_zero hi.symm
  have hassoc := addX_assoc h₁ h₂ (onCurve_turn hi h₃)
  rw [addX_turn hi, addX_turn hi, addY_turn hi, addX_turn hi] at hassoc
  exact mul_left_cancel₀ hne hassoc

end Law

/-! ## Projective coordinates -/

section Projective

variable {d X Y Z : K}

/-- The curve equation in projective coordinates. -/
def OnProjective (d X Y Z : K) : Prop :=
  (Y ^ 2 - X ^ 2) * Z ^ 2 = Z ^ 4 + d * X ^ 2 * Y ^ 2

theorem onProjective_one (h : OnCurve d X Y) : OnProjective d X Y 1 := by
  unfold OnCurve at h
  unfold OnProjective
  linear_combination h

theorem onCurve_div (hz : Z ≠ 0) (h : OnProjective d X Y Z) : OnCurve d (X / Z) (Y / Z) := by
  unfold OnProjective at h
  unfold OnCurve
  field_simp
  linear_combination h

theorem OnProjective.map {L : Type} [Field L] (f : K →+* L) (h : OnProjective d X Y Z) :
    OnProjective (f d) (f X) (f Y) (f Z) := by
  have himage := congrArg f h
  simp only [map_mul, map_sub, map_add, map_pow] at himage
  exact himage

end Projective

/-! ## The group of points -/

/-- A point of the curve. -/
@[ext]
structure Point (d : K) where
  x : K
  y : K
  on : OnCurve d x y

namespace Point

variable {d : K}

theorem onCurve_zero : OnCurve d 0 1 := by
  unfold OnCurve
  ring

theorem onCurve_neg {x y : K} (h : OnCurve d x y) : OnCurve d (-x) y := by
  unfold OnCurve at *
  linear_combination h

/-- The point (0, -1). -/
def order2 : Point d := ⟨0, -1, by unfold OnCurve; ring⟩

instance instZero : Zero (Point d) := ⟨⟨0, 1, onCurve_zero⟩⟩

instance instNeg : Neg (Point d) := ⟨fun P => ⟨-P.x, P.y, onCurve_neg P.on⟩⟩

instance instAdd [Complete d] : Add (Point d) :=
  ⟨fun P Q => ⟨addX d P.x P.y Q.x Q.y, addY d P.x P.y Q.x Q.y, onCurve_add P.on Q.on⟩⟩

@[simp] theorem x_zero : (0 : Point d).x = 0 := rfl

@[simp] theorem y_zero : (0 : Point d).y = 1 := rfl

@[simp] theorem x_neg (P : Point d) : (-P).x = -P.x := rfl

@[simp] theorem y_neg (P : Point d) : (-P).y = P.y := rfl

variable [Complete d]

theorem x_add (P Q : Point d) : (P + Q).x = addX d P.x P.y Q.x Q.y := rfl

theorem y_add (P Q : Point d) : (P + Q).y = addY d P.x P.y Q.x Q.y := rfl

theorem add_comm' (P Q : Point d) : P + Q = Q + P :=
  Point.ext addX_comm addY_comm

theorem add_assoc' (P Q R : Point d) : P + Q + R = P + (Q + R) :=
  Point.ext (addX_assoc P.on Q.on R.on) (addY_assoc P.on Q.on R.on)

theorem zero_add' (P : Point d) : 0 + P = P := by
  apply Point.ext
  · simp [x_add, addX]
  · simp [y_add, addY]

theorem neg_add' (P : Point d) : -P + P = 0 := by
  have hden := (den_ne_zero (onCurve_neg P.on) P.on).2
  have hon := P.on
  apply Point.ext
  · show (-P.x * P.y + P.y * P.x) / _ = 0
    rw [neg_mul, mul_comm P.y, neg_add_cancel, zero_div]
  · show (P.y * P.y + -P.x * P.x) / (1 - d * -P.x * P.x * P.y * P.y) = 1
    rw [div_eq_one_iff_eq hden]
    unfold OnCurve at hon
    linear_combination hon

/-- **The points of a complete curve are a commutative group.** -/
instance instAddCommGroup : AddCommGroup (Point d) where
  add_assoc := add_assoc'
  zero_add := zero_add'
  add_zero P := (add_comm' P 0).trans (zero_add' P)
  nsmul := nsmulRec
  zsmul := zsmulRec
  neg_add_cancel := neg_add'
  add_comm := add_comm'

theorem order2_add_order2 : (order2 : Point d) + order2 = 0 := by
  apply Point.ext
  · show ((0 : K) * -1 + -1 * 0) / _ = 0
    rw [zero_mul, mul_zero, add_zero, zero_div]
  · show (-1 * -1 + 0 * 0) / (1 - d * 0 * 0 * -1 * -1) = (1 : K)
    simp

omit [Complete d] in
/-- The points with x = 0 are the neutral element and the point of order 2. -/
theorem x_eq_zero_iff {P : Point d} : P.x = 0 ↔ P = 0 ∨ P = order2 := by
  constructor
  · intro hx
    have hon := P.on
    unfold OnCurve at hon
    rw [hx] at hon
    have hsq : P.y * P.y = 1 := by linear_combination hon
    rcases mul_self_eq_one_iff.mp hsq with hy | hy
    · exact .inl (Point.ext hx hy)
    · exact .inr (Point.ext hx hy)
  · rintro (rfl | rfl)
    · rfl
    · rfl

end Point

end Edwards
