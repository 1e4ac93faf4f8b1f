import Mathlib.Data.Finset.Card
import Mathlib.Data.Finset.Dedup
import Mathlib.Data.Set.Card

/-!
# Counting distinct voters greedily

A list of ballots is scanned once; `vote a` is the voter a ballot counts for.
`collect` keeps the voters counted so far, skips a voter it has already counted
and stops as soon as `quorum` of them are in.

The scan depends on the order of the ballots and on where it stops; its outcome
does not. `length_collect` is the order-free statement: the number of voters
counted is the number of distinct voters, cut off at the quorum.
-/

namespace Tally

variable {α ι : Type} [DecidableEq ι]

/-- Scan the ballots, counting each voter once, until `quorum` are counted. -/
def collect (vote : α → Option ι) (quorum : Nat) : List α → List ι → List ι
  | [], seen => seen
  | a :: as, seen =>
    match vote a with
    | none => collect vote quorum as seen
    | some i =>
      if i ∈ seen then collect vote quorum as seen
      else if quorum ≤ seen.length + 1 then i :: seen
      else collect vote quorum as (i :: seen)

/-- The voters of a list of ballots. -/
def voters (vote : α → Option ι) (as : List α) : Finset ι := (as.filterMap vote).toFinset

theorem mem_voters {vote : α → Option ι} {as : List α} {i : ι} :
    i ∈ voters vote as ↔ ∃ a ∈ as, vote a = some i := by
  rw [voters, List.mem_toFinset, List.mem_filterMap]

/-- The number of voters, as the size of a set of voters. -/
theorem card_voters (vote : α → Option ι) (as : List α) :
    (voters vote as).card = {i | ∃ a ∈ as, vote a = some i}.ncard := by
  rw [← Set.ncard_coe_finset]
  congr 1
  ext i
  exact mem_voters

theorem voters_cons_none {vote : α → Option ι} {a : α} (h : vote a = none) (as : List α) :
    voters vote (a :: as) = voters vote as := by
  rw [voters, List.filterMap_cons_none h]
  rfl

theorem voters_cons_some {vote : α → Option ι} {a : α} {i : ι} (h : vote a = some i)
    (as : List α) : voters vote (a :: as) = insert i (voters vote as) := by
  rw [voters, List.filterMap_cons_some h, List.toFinset_cons]
  rfl

/-- With as many voters as ballots, every ballot is a vote. -/
theorem all_vote_of_card {vote : α → Option ι} {as : List α}
    (h : (voters vote as).card = as.length) : ∀ a ∈ as, ∃ i, vote a = some i := by
  intro a ha
  have hle : as.length ≤ (as.filterMap vote).length := by
    rw [← h, voters]
    exact List.toFinset_card_le _
  have hlen : (as.filterMap vote).length = as.length :=
    Nat.le_antisymm (List.length_filterMap_le vote as) hle
  exact Option.isSome_iff_exists.mp (List.filterMap_length_eq_length.mp hlen a ha)

/-- A ballot that is no vote, or a vote of a voter already counted, is skipped. -/
theorem collect_cons_skip {vote : α → Option ι} {quorum : Nat} {a : α} {seen : List ι}
    (h : ∀ i, vote a = some i → i ∈ seen) (as : List α) :
    collect vote quorum (a :: as) seen = collect vote quorum as seen := by
  rw [collect]
  cases hv : vote a with
  | none => rfl
  | some i =>
    simp only
    rw [if_pos (h i hv)]

/-- A vote of a new voter is counted; the scan stops there or goes on. -/
theorem collect_cons_new {vote : α → Option ι} {quorum : Nat} {a : α} {seen : List ι} {i : ι}
    (hv : vote a = some i) (hi : i ∉ seen) (as : List α) :
    collect vote quorum (a :: as) seen
      = if quorum ≤ seen.length + 1 then i :: seen else collect vote quorum as (i :: seen) := by
  rw [collect, hv]
  simp only
  rw [if_neg hi]

/-- A ballot is skipped or is the vote of a new voter. -/
theorem skip_or_new (vote : α → Option ι) (a : α) (seen : List ι) :
    (∀ i, vote a = some i → i ∈ seen) ∨ ∃ i, vote a = some i ∧ i ∉ seen := by
  cases hv : vote a with
  | none => exact Or.inl fun i h => (nomatch h)
  | some i =>
    by_cases hi : i ∈ seen
    · exact Or.inl fun j h => Option.some.inj h ▸ hi
    · exact Or.inr ⟨i, rfl, hi⟩

/-- No voter is counted twice. -/
theorem collect_nodup (vote : α → Option ι) (quorum : Nat) (as : List α) (seen : List ι)
    (h : seen.Nodup) : (collect vote quorum as seen).Nodup := by
  induction as generalizing seen with
  | nil => exact h
  | cons a as ih =>
    rcases skip_or_new vote a seen with hskip | ⟨i, hv, hi⟩
    · rw [collect_cons_skip hskip]
      exact ih seen h
    · have hcons : (i :: seen).Nodup := List.nodup_cons.mpr ⟨hi, h⟩
      rw [collect_cons_new hv hi]
      split
      · exact hcons
      · exact ih _ hcons

/-- Only voters are counted. -/
theorem collect_sound {vote : α → Option ι} {quorum : Nat} {as : List α} {seen : List ι} {i : ι}
    (h : i ∈ collect vote quorum as seen) : i ∈ seen ∨ ∃ a ∈ as, vote a = some i := by
  induction as generalizing seen with
  | nil => exact Or.inl h
  | cons a as ih =>
    have later : (∃ b ∈ as, vote b = some i) → ∃ b ∈ a :: as, vote b = some i :=
      fun ⟨b, hb, hv⟩ => ⟨b, List.mem_cons_of_mem a hb, hv⟩
    rcases skip_or_new vote a seen with hskip | ⟨j, hv, hj⟩
    · rw [collect_cons_skip hskip] at h
      exact (ih h).imp_right later
    · rw [collect_cons_new hv hj] at h
      -- the ballot in front is the only new source of a voter
      have here : i ∈ j :: seen → i ∈ seen ∨ ∃ b ∈ a :: as, vote b = some i := by
        intro hmem
        rcases List.mem_cons.mp hmem with rfl | hmem
        · exact Or.inr ⟨a, List.mem_cons_self, hv⟩
        · exact Or.inl hmem
      split at h
      · exact here h
      · rcases ih h with hmem | hlater
        · exact here hmem
        · exact Or.inr (later hlater)

/-- **The count is order-free**: the scan counts the distinct voters among those
already seen and those of the ballots, cut off at the quorum. -/
theorem length_collect {vote : α → Option ι} {quorum : Nat} (as : List α) (seen : List ι)
    (hnodup : seen.Nodup) (hlt : seen.length < quorum) :
    (collect vote quorum as seen).length
      = min quorum (seen.toFinset ∪ voters vote as).card := by
  have hcard : seen.toFinset.card = seen.length := List.toFinset_card_of_nodup hnodup
  induction as generalizing seen with
  | nil =>
    have hempty : voters vote ([] : List α) = ∅ := rfl
    rw [collect, hempty, Finset.union_empty, hcard, Nat.min_eq_right (Nat.le_of_lt hlt)]
  | cons a as ih =>
    rcases skip_or_new vote a seen with hskip | ⟨i, hv, hi⟩
    · have hsame : seen.toFinset ∪ voters vote (a :: as) = seen.toFinset ∪ voters vote as := by
        cases hv : vote a with
        | none => rw [voters_cons_none hv]
        | some i =>
          rw [voters_cons_some hv, Finset.union_insert, Finset.insert_eq_self]
          exact Finset.mem_union_left _ (List.mem_toFinset.mpr (hskip i hv))
      rw [collect_cons_skip hskip, hsame]
      exact ih seen hnodup hlt hcard
    · have hcons : (i :: seen).Nodup := List.nodup_cons.mpr ⟨hi, hnodup⟩
      have hccons : (i :: seen).toFinset.card = (i :: seen).length :=
        List.toFinset_card_of_nodup hcons
      have hunion : seen.toFinset ∪ voters vote (a :: as)
          = (i :: seen).toFinset ∪ voters vote as := by
        rw [voters_cons_some hv, Finset.union_insert, List.toFinset_cons, Finset.insert_union]
      rw [collect_cons_new hv hi, hunion]
      split
      · -- the quorum is complete with this voter; what follows cannot lower the count
        have hle : (i :: seen).toFinset.card
            ≤ ((i :: seen).toFinset ∪ voters vote as).card :=
          Finset.card_le_card Finset.subset_union_left
        rw [List.length_cons] at hccons ⊢
        omega
      · exact ih (i :: seen) hcons (by rw [List.length_cons]; omega) hccons

end Tally
