import Mathlib.Data.Set.Function

/-!
# Word memory

A memory that is addressed word by word, for routines that are handed pointers and write
through them one word after the other.

- `Memory.set` stores a word, and `Memory.setPair` two words.
- `Memory.SameOrApart` is what a routine may assume of a pointer that it reads and one
  that it writes: they are one pointer, or they do not overlap.
- `Memory.Changes` is the frame of a routine: the words that it may write. A word off the
  frame is unchanged.
-/

/-- A memory of words. -/
abbrev Memory (W : Type) := Nat → W

namespace Memory

variable {W : Type} {m m' : Memory W} {p q n : Nat}

/-- A word stored. -/
def set (m : Memory W) (p : Nat) (w : W) : Memory W := Function.update m p w

@[simp] theorem set_same (m : Memory W) (p : Nat) (w : W) : m.set p w p = w := by
  unfold set
  exact Function.update_self p w m

theorem set_ne (m : Memory W) (w : W) (h : q ≠ p) : m.set p w q = m q := by
  unfold set
  exact Function.update_of_ne h w m

@[simp] theorem set_set (m : Memory W) (p : Nat) (w w' : W) :
    (m.set p w).set p w' = m.set p w' := by
  unfold set
  exact Function.update_idem w w' m

theorem set_comm (m : Memory W) (w w' : W) (h : p ≠ q) :
    (m.set p w).set q w' = (m.set q w').set p w := by
  unfold set
  exact Function.update_comm h w w' m

/-! ## Pairs of words -/

/-- Two words. -/
def pair (m : Memory W) (p : Nat) : W × W := (m p, m (p + 1))

/-- Two words stored. -/
def setPair (m : Memory W) (p : Nat) (w : W × W) : Memory W := (m.set p w.1).set (p + 1) w.2

theorem setPair_ne (m : Memory W) (w : W × W) (h : q < p ∨ p + 2 ≤ q) : m.setPair p w q = m q := by
  rw [setPair, set_ne _ _ (by omega), set_ne _ _ (by omega)]

@[simp] theorem pair_setPair (m : Memory W) (p : Nat) (w : W × W) : (m.setPair p w).pair p = w := by
  rw [pair, setPair, set_same, set_ne _ _ (by omega), set_same]

theorem pair_setPair_of_apart (m : Memory W) (w : W × W) (h : q + 2 ≤ p ∨ p + 2 ≤ q) :
    (m.setPair p w).pair q = m.pair q := by
  rw [pair, pair, setPair_ne m w (by omega), setPair_ne m w (by omega)]

/-- A pair stored over another. -/
theorem set_set_setPair (m : Memory W) (p : Nat) (w : W × W) (v v' : W) :
    ((m.setPair p w).set p v).set (p + 1) v' = m.setPair p (v, v') := by
  rw [setPair, set_comm _ _ _ (Nat.succ_ne_self p), set_set, set_set, setPair]

@[simp] theorem setPair_pair (m : Memory W) (p : Nat) : m.setPair p (m.pair p) = m := by
  unfold setPair pair set
  rw [Function.update_eq_self, Function.update_eq_self]

@[simp] theorem setPair_setPair (m : Memory W) (p : Nat) (w w' : W × W) :
    (m.setPair p w).setPair p w' = m.setPair p w' := by
  rw [← set_set_setPair m p w w'.1 w'.2, setPair]

/-- A memory that differs from another in two words. -/
theorem eq_setPair {w : W × W} (hpair : m'.pair p = w)
    (hne : ∀ q, q < p ∨ p + 2 ≤ q → m' q = m q) : m' = m.setPair p w := by
  have h0 : m' p = w.1 := congrArg Prod.fst hpair
  have h1 : m' (p + 1) = w.2 := congrArg Prod.snd hpair
  funext q
  by_cases hq : q < p ∨ p + 2 ≤ q
  · rw [hne q hq, setPair_ne m w hq]
  · rcases (show q = p ∨ q = p + 1 by omega) with rfl | rfl
    · rw [h0, setPair, set_ne _ _ (by omega), set_same]
    · rw [h1, setPair, set_same]

/-! ## Aliasing and frames -/

/-- The `n` words at `p` and at `q` are the same words, or they do not overlap. -/
abbrev SameOrApart (n p q : Nat) : Prop := p = q ∨ p + n ≤ q ∨ q + n ≤ p

/-- Only the `n` words at `p`, and words from `top` on, may differ. -/
def Changes (top p n : Nat) (m m' : Memory W) : Prop :=
  Set.EqOn m' m {q | q < top ∧ (q < p ∨ p + n ≤ q)}

namespace Changes

variable {top : Nat}

theorem setPair (h : Changes top p n m m') {w : W × W} (hq : top ≤ q ∨ (p ≤ q ∧ q + 2 ≤ p + n)) :
    Changes top p n m (m'.setPair q w) := by
  intro r hr
  obtain ⟨htop, hpn⟩ := hr
  rw [setPair_ne m' w (by omega)]
  exact h ⟨htop, hpn⟩

theorem refl (m : Memory W) : Changes top p n m m := fun _ _ => rfl

/-- Two words off the frame. -/
theorem pair (h : Changes top p n m m') (htop : q + 2 ≤ top) (hq : q + 2 ≤ p ∨ p + n ≤ q) :
    m'.pair q = m.pair q := by
  have h0 : m' q = m q := h ⟨by omega, by omega⟩
  have h1 : m' (q + 1) = m (q + 1) := h ⟨by omega, by omega⟩
  rw [Memory.pair, Memory.pair, h0, h1]

end Changes

end Memory
