import Mathlib.Algebra.BigOperators.Fin
import Mathlib.Data.List.FinRange

/-!
# Loops over arrays

`for i in 0..n` over a fixed-size array, as a fold over `Fin n`, with the induction rule
`forRange_induction`. A loop that adds up is a sum (`forRange_sum`), a loop that rewrites
each cell from its own old value is a map (`getElem_forRange_set`), a loop inside one
row stays in that row (`forRange_row`), and a loop that writes to distinct cells leaves
what it wrote there (`getElem_forRange_scatter`).
-/

/-- `for i in 0..n`. -/
def forRange {β : Type} (n : Nat) (b : β) (body : β → Fin n → β) : β :=
  (List.finRange n).foldl body b

/-- A map that commutes with the body commutes with the loop. -/
theorem map_forRange {β γ : Type} {n : Nat} (g : β → γ) {body : β → Fin n → β}
    {body' : γ → Fin n → γ} (h : ∀ b i, g (body b i) = body' (g b) i) (b : β) :
    g (forRange n b body) = forRange n (g b) body' := by
  rw [forRange, forRange]
  induction List.finRange n generalizing b with
  | nil => rfl
  | cons i is ih => rw [List.foldl_cons, ih, h, List.foldl_cons]

/-- The last turn of a loop. -/
theorem forRange_succ {β : Type} (n : Nat) (b : β) (body : β → Fin (n + 1) → β) :
    forRange (n + 1) b body
      = body (forRange n b fun b i => body b i.castSucc) (Fin.last n) := by
  rw [forRange, forRange, List.finRange_succ_last, List.foldl_append, List.foldl_map]
  rfl

/-- What holds before a loop and is kept by each turn holds after it. -/
theorem forRange_induction {β : Type} {n : Nat} {P : Nat → β → Prop} {b : β}
    {body : β → Fin n → β} (hinit : P 0 b)
    (hstep : ∀ (i : Fin n) (b : β), P i b → P (i + 1) (body b i)) : P n (forRange n b body) := by
  induction n with
  | zero => exact hinit
  | succ n ih =>
    rw [forRange_succ]
    exact hstep (Fin.last n) _ (ih fun i b h => hstep i.castSucc b h)

/-- A quantity to which turn `i` adds `w i`, as long as the invariant `P` holds. -/
theorem forRange_sum {β M : Type} [AddCommMonoid M] {n : Nat} {P : Nat → β → Prop}
    {m : Nat → β → M} {w : Fin n → M} {b : β} {body : β → Fin n → β} (hinit : P 0 b)
    (hkeep : ∀ (i : Fin n) (b : β), P i b → P (i + 1) (body b i))
    (hadd : ∀ (i : Fin n) (b : β), P i b → m (i + 1) (body b i) = m i b + w i) :
    m n (forRange n b body) = m 0 b + ∑ i, w i := by
  induction n with
  | zero => rw [Fin.sum_univ_zero, add_zero]; rfl
  | succ n ih =>
    have hlast : P n (forRange n b fun b i => body b i.castSucc) :=
      forRange_induction hinit fun i b h => hkeep i.castSucc b h
    have hsum : m n (forRange n b fun b i => body b i.castSucc)
        = m 0 b + ∑ i : Fin n, w i.castSucc :=
      ih (fun i b h => hkeep i.castSucc b h) fun i b h => hadd i.castSucc b h
    rw [forRange_succ, Fin.sum_univ_castSucc, ← add_assoc, ← hsum]
    exact hadd (Fin.last n) _ hlast

/-- A relation to a sum to which turn `i` adds `w i`. -/
theorem forRange_rel_sum {β M : Type} [AddCommMonoid M] {n : Nat} {R : β → M → Prop}
    {w : Fin n → M} {b : β} {a : M} {body : β → Fin n → β} (hinit : R b a)
    (hstep : ∀ (i : Fin n) (b : β) (a : M), R b a → R (body b i) (a + w i)) :
    R (forRange n b body) (a + ∑ i, w i) := by
  induction n with
  | zero =>
    rw [Fin.sum_univ_zero, add_zero]
    exact hinit
  | succ n ih =>
    rw [forRange_succ, Fin.sum_univ_castSucc, ← add_assoc]
    exact hstep (Fin.last n) _ _ (ih fun i b a h => hstep i.castSucc b a h)

section Loops

variable {α : Type} {m n : Nat}

theorem getElem_foldl_set (f : Fin n → α → α) {is : List (Fin n)} (hnodup : is.Nodup)
    (v : Vector α n) (j : Fin n) :
    (is.foldl (fun v i => v.set i (f i v[i])) v)[j] = if j ∈ is then f j v[j] else v[j] := by
  induction is generalizing v with
  | nil => rfl
  | cons i is ih =>
    obtain ⟨hi, his⟩ := List.nodup_cons.mp hnodup
    rw [List.foldl_cons, ih his]
    by_cases hij : j = i
    · subst hij
      rw [if_neg hi, if_pos List.mem_cons_self]
      exact Vector.getElem_set_self j.isLt
    · have hget : (v.set i (f i v[i]))[j] = v[j] :=
        Vector.getElem_set_ne i.isLt j.isLt fun h => hij (Fin.ext h.symm)
      rw [hget]
      simp only [List.mem_cons, hij, false_or]

/-- A loop that rewrites each cell from its old value. -/
theorem getElem_forRange_set (f : Fin n → α → α) (v : Vector α n) (j : Fin n) :
    (forRange n v fun v i => v.set i (f i v[i]))[j] = f j v[j] := by
  rw [forRange, getElem_foldl_set f (List.nodup_finRange n), if_pos (List.mem_finRange j)]

/-- A loop inside the row `x`. -/
theorem forRange_row (g : α → Fin n → α) (v : Vector α m) (x : Fin m) :
    (forRange n v fun v y => v.set x (g v[x] y)) = v.set x (forRange n v[x] g) := by
  rw [forRange, forRange]
  induction List.finRange n generalizing v with
  | nil => exact (Vector.set_getElem_self x.isLt).symm
  | cons y ys ih =>
    have hget : (v.set x (g v[x] y))[x] = g v[x] y := Vector.getElem_set_self x.isLt
    rw [List.foldl_cons, ih, hget, List.foldl_cons]
    exact Vector.set_set ..

/-- One row of a loop that rewrites all rows. -/
theorem getElem_forRange (g : Vector α m → Fin n → Vector α m) (h : α → Fin n → α) (y : Fin m)
    (hg : ∀ v x, (g v x)[y] = h v[y] x) (v : Vector α m) :
    (forRange n v g)[y] = forRange n v[y] h :=
  map_forRange (fun v => v[y]) hg v

/-- Writes to distinct cells: the one for `x` is not written over. -/
theorem getElem_foldl_scatter {p : Fin n → Fin m} (hp : Function.Injective p) (w : Fin n → α)
    (is : List (Fin n)) (v : Vector α m) (x : Fin n) :
    (is.foldl (fun v x => v.set (p x) (w x)) v)[p x] = if x ∈ is then w x else v[p x] := by
  induction is generalizing v with
  | nil => rfl
  | cons i is ih =>
    rw [List.foldl_cons, ih]
    by_cases hmem : x ∈ is
    · rw [if_pos hmem, if_pos (List.mem_cons_of_mem i hmem)]
    · by_cases hix : x = i
      · subst hix
        rw [if_neg hmem, if_pos List.mem_cons_self]
        exact Vector.getElem_set_self (p x).isLt
      · have hne : ¬ x ∈ i :: is := fun h => (List.mem_cons.mp h).elim hix hmem
        rw [if_neg hmem, if_neg hne]
        exact Vector.getElem_set_ne (p i).isLt (p x).isLt fun h => hix (hp (Fin.ext h)).symm

/-- A loop that writes to distinct cells. -/
theorem getElem_forRange_scatter {p : Fin n → Fin m} (hp : Function.Injective p) (w : Fin n → α)
    (v : Vector α m) (x : Fin n) :
    (forRange n v fun v x => v.set (p x) (w x))[p x] = w x := by
  rw [forRange, getElem_foldl_scatter hp, if_pos (List.mem_finRange x)]

end Loops
