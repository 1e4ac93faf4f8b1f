import Mathlib.Data.List.Basic

/-!
# Sorting by key and binary search

`binarySearchBy f s` is `[T]::binary_search_by`: the loop halves the range
`base .. base + size` without an early exit and looks at the element it ends
on. `f` says how an element compares with the target, and `Partitioned f s` is
the documented precondition: the elements below the target come first, then the
equal ones, then those above it.

`KeySort` is all a caller may assume of a sort by key: it permutes its input into
key order, in an order of its own among equal keys.

The loop invariant `Bracket` is that everything from `base + size` on is above
the target and that the element at `base` is not, unless `base` is still 0.
-/

namespace Search

variable {α : Type}

/-- Elements below the target come first, then equal ones, then those above. -/
def Partitioned (f : α → Ordering) (s : List α) : Prop :=
  s.Pairwise fun a b => (f a = .gt → f b = .gt) ∧ (f b = .lt → f a = .lt)

/-- The search loop: the position it ends on. -/
def searchBase (f : α → Ordering) (s : List α) (base size : Nat) : Nat :=
  if size ≤ 1 then base
  else
    let half := size / 2
    let mid := base + half
    let base := if s[mid]?.map f = some .gt then base else mid
    searchBase f s base (size - half)
termination_by size

/-- `s.binary_search_by(f)`: the position of an equal element, or the position
where one could be inserted. -/
def binarySearchBy (f : α → Ordering) (s : List α) : Except Nat Nat :=
  if s.length = 0 then .error 0
  else
    let base := searchBase f s 0 s.length
    match s[base]?.map f with
    | some .eq => .ok base
    | some .lt => .error (base + 1)
    | _ => .error base

/-- The loop invariant. -/
structure Bracket (f : α → Ordering) (s : List α) (base size : Nat) : Prop where
  pos : 1 ≤ size
  le : base + size ≤ s.length
  above : ∀ (j : Nat) (hj : j < s.length), base + size ≤ j → f s[j] = .gt
  start : base = 0 ∨ ∃ hb : base < s.length, f s[base] ≠ .gt

theorem bracket_init {f : α → Ordering} {s : List α} (h : s.length ≠ 0) :
    Bracket f s 0 s.length where
  pos := Nat.pos_of_ne_zero h
  le := by omega
  above := fun j hj hle => absurd hj (by omega)
  start := Or.inl rfl

/-- One halving of the range keeps the invariant. -/
theorem bracket_step {f : α → Ordering} {s : List α} (hs : Partitioned f s) {base size : Nat}
    (h : Bracket f s base size) (hsize : ¬ size ≤ 1) :
    Bracket f s (if s[base + size / 2]?.map f = some .gt then base else base + size / 2)
      (size - size / 2) := by
  have hle := h.le
  have hmid : base + size / 2 < s.length := by omega
  rw [List.getElem?_eq_getElem hmid, Option.map_some]
  by_cases hgt : f s[base + size / 2] = .gt
  · rw [if_pos (congrArg some hgt)]
    refine { pos := by omega, le := by omega, above := fun j hj hbj => ?_, start := h.start }
    -- the middle element is above the target, hence so is all that follows it
    rcases Nat.lt_or_ge (base + size / 2) j with hlt | hge
    · exact ((List.pairwise_iff_getElem.mp hs) _ _ hmid hj hlt).1 hgt
    · have hjm : j = base + size / 2 := by omega
      subst hjm
      exact hgt
  · rw [if_neg (fun hc => hgt (Option.some.inj hc))]
    exact
      { pos := by omega, le := by omega,
        above := fun j hj hbj => h.above j hj (by omega),
        start := Or.inr ⟨hmid, hgt⟩ }

/-- The loop ends on a position whose followers are all above the target. -/
theorem bracket_searchBase {f : α → Ordering} {s : List α} (hs : Partitioned f s)
    (base size : Nat) (h : Bracket f s base size) : Bracket f s (searchBase f s base size) 1 := by
  induction size using Nat.strongRecOn generalizing base with
  | ind size ih =>
    rw [searchBase]
    by_cases hsize : size ≤ 1
    · have hone : size = 1 := Nat.le_antisymm hsize h.pos
      rw [if_pos hsize]
      exact hone ▸ h
    · rw [if_neg hsize]
      exact ih (size - size / 2) (by omega) _ (bracket_step hs h hsize)

/-- A found position holds an equal element. -/
theorem binarySearchBy_sound {f : α → Ordering} {s : List α} {i : Nat}
    (h : binarySearchBy f s = .ok i) : ∃ hi : i < s.length, f s[i] = .eq := by
  rw [binarySearchBy] at h
  split at h
  · cases h
  · simp only at h
    split at h
    · rename_i heq
      cases h
      obtain ⟨a, ha, hfa⟩ := Option.map_eq_some_iff.mp heq
      obtain ⟨hi, rfl⟩ := List.getElem?_eq_some_iff.mp ha
      exact ⟨hi, hfa⟩
    · cases h
    · cases h

/-- An equal element, if there is one, is found. -/
theorem binarySearchBy_complete {f : α → Ordering} {s : List α} (hs : Partitioned f s)
    {k : Nat} (hk : k < s.length) (hfk : f s[k] = .eq) : ∃ i, binarySearchBy f s = .ok i := by
  have hne : s.length ≠ 0 := by omega
  have hb := bracket_searchBase hs 0 s.length (bracket_init hne)
  generalize hbase : searchBase f s 0 s.length = base at hb
  have hlt : base < s.length := hb.le
  have heq : f s[base] = .eq := by
    rcases Nat.lt_trichotomy k base with hkb | rfl | hkb
    · -- the last position is neither above the target nor below it
      have hngt : f s[base] ≠ .gt := by
        rcases hb.start with h0 | ⟨_, h⟩
        · omega
        · exact h
      have hord := (List.pairwise_iff_getElem.mp hs) _ _ hk hlt hkb
      cases hc : f s[base] with
      | eq => rfl
      | gt => exact absurd hc hngt
      | lt => rw [hord.2 hc] at hfk; cases hfk
    · exact hfk
    · rw [hb.above k hk hkb] at hfk
      cases hfk
  refine ⟨base, ?_⟩
  rw [binarySearchBy, if_neg hne]
  simp only [hbase, List.getElem?_eq_getElem hlt, Option.map_some, heq]

/-! ## Sorting by key -/

/-- A sort by key: any function that permutes its input into key order. -/
structure KeySort (κ ι : Type) [Ord κ] where
  /-- the elements in key order -/
  run : (ι → κ) → List ι → List ι
  perm : ∀ (key : ι → κ) (l : List ι), (run key l).Perm l
  sorted : ∀ (key : ι → κ) (l : List ι),
    (run key l).Pairwise fun i j => (compare (key i) (key j)).isLE

/-- Merge sort is a sort by key. -/
def KeySort.mergeSort (κ ι : Type) [Ord κ] [Std.TransOrd κ] : KeySort κ ι where
  run key l := l.mergeSort fun i j => (compare (key i) (key j)).isLE
  perm _ l := List.mergeSort_perm l _
  sorted key l := by
    refine List.pairwise_mergeSort (fun a b c hab hbc => ?_) (fun a b => ?_) l
    · exact Std.TransCmp.isLE_trans hab hbc
    · have hswap : compare (key b) (key a) = (compare (key a) (key b)).swap :=
        Std.OrientedCmp.eq_swap
      rw [Bool.or_eq_true, hswap]
      cases compare (key a) (key b) <;> simp

section SortedByKey

variable {κ ι : Type} [Ord κ] [Std.TransOrd κ] [Std.LawfulEqOrd κ]

/-- In key order, distinct neighbours make the order strict: the keys of any two
positions differ, not only those of neighbours. -/
theorem strict_of_neighbours_ne {key : ι → κ} {l : List ι}
    (hsorted : l.Pairwise fun i j => (compare (key i) (key j)).isLE)
    (hne : l.IsChain fun i j => key i ≠ key j) :
    l.Pairwise fun i j => compare (key i) (key j) = .lt := by
  let lt : ι → ι → Prop := fun i j => compare (key i) (key j) = .lt
  have htrans : IsTrans ι lt := ⟨fun _ _ _ => Std.TransCmp.lt_trans⟩
  suffices hchain : l.IsChain lt from List.isChain_iff_pairwise.mp hchain
  induction l with
  | nil => exact List.IsChain.nil
  | cons i l ih =>
    cases l with
    | nil => exact List.IsChain.singleton i
    | cons j l =>
      rw [List.isChain_cons_cons] at hne ⊢
      have hij := List.rel_of_pairwise_cons hsorted List.mem_cons_self
      have hneq : compare (key i) (key j) ≠ .eq := fun h =>
        hne.1 (Std.LawfulEqCmp.compare_eq_iff_eq.mp h)
      refine ⟨?_, ih hsorted.of_cons hne.2⟩
      -- sorted excludes `gt`, different keys exclude `eq`
      show compare (key i) (key j) = .lt
      cases hc : compare (key i) (key j) with
      | lt => rfl
      | eq => exact absurd hc hneq
      | gt =>
        rw [hc] at hij
        cases hij

omit [Std.LawfulEqOrd κ] in
/-- A strictly sorted list is partitioned by the comparison with any target. -/
theorem partitioned_of_strict {key : ι → κ} {l : List ι}
    (h : l.Pairwise fun i j => compare (key i) (key j) = .lt) (target : κ) :
    Partitioned (fun i => compare (key i) target) l := by
  refine h.imp fun {i j} hij => ⟨fun hgt => ?_, fun hlt => Std.TransCmp.lt_trans hij hlt⟩
  exact Std.TransCmp.gt_trans (Std.OrientedCmp.gt_of_lt hij) hgt

end SortedByKey

end Search
