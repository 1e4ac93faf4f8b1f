import Mathlib.Data.List.Basic
import Mathlib.Logic.Function.Basic

/-!
# Write-once stores

A store takes offers one after the other; the first offer for a key is stored and
logged, later ones for that key are ignored, and `none` offers nothing.

`run_entries` is the meaning of a run: each key holds the value of the first offer
for it, and `run_log` says the log has one entry for each key that is set.
-/

namespace WriteOnce

variable {κ ν : Type} [DecidableEq κ]

/-- The values stored so far, and the offers that were stored, oldest first. -/
structure Store (κ ν : Type) where
  entries : κ → Option ν
  log : List (κ × ν)

/-- The store with nothing in it. -/
def Store.empty : Store κ ν where
  entries _ := none
  log := []

/-- Take an offer. -/
def step (s : Store κ ν) : Option (κ × ν) → Store κ ν
  | none => s
  | some (k, v) =>
    match s.entries k with
    | some _ => s
    | none => { entries := Function.update s.entries k (some v), log := s.log ++ [(k, v)] }

/-- Take offers one after the other. -/
def run (offers : List (Option (κ × ν))) : Store κ ν := offers.foldl step Store.empty

/-- The value an offer has for a key. -/
def valueFor (k : κ) (offer : Option (κ × ν)) : Option ν :=
  offer.bind fun p => if p.1 = k then some p.2 else none

@[simp] theorem valueFor_none (k : κ) : valueFor k (none : Option (κ × ν)) = none := rfl

theorem valueFor_self (k : κ) (v : ν) : valueFor k (some (k, v)) = some v := if_pos rfl

theorem valueFor_ne {k k' : κ} (h : k' ≠ k) (v : ν) : valueFor k (some (k', v)) = none := if_neg h

theorem valueFor_eq_some {k : κ} {offer : Option (κ × ν)} {v : ν} :
    valueFor k offer = some v ↔ offer = some (k, v) := by
  constructor
  · intro h
    cases offer with
    | none => cases h
    | some p =>
      obtain ⟨k', v'⟩ := p
      by_cases hk : k' = k
      · subst hk
        rw [valueFor_self] at h
        cases h
        rfl
      · rw [valueFor_ne hk] at h
        cases h
  · rintro rfl
    exact valueFor_self k v

/-- An offer for a key that is set is ignored. -/
theorem step_of_set {s : Store κ ν} {k : κ} {v : ν} (h : (s.entries k).isSome) :
    step s (some (k, v)) = s := by
  obtain ⟨w, hw⟩ := Option.isSome_iff_exists.mp h
  rw [step, hw]

/-- An offer for a key that is not set is stored and logged. -/
theorem step_of_unset {s : Store κ ν} {k : κ} (h : s.entries k = none) (v : ν) :
    step s (some (k, v))
      = { entries := Function.update s.entries k (some v), log := s.log ++ [(k, v)] } := by
  rw [step, h]

/-- A key that is set stays as it is; one that is not takes the offer's value. -/
theorem step_entries (s : Store κ ν) (offer : Option (κ × ν)) (k : κ) :
    (step s offer).entries k = (s.entries k).or (valueFor k offer) := by
  cases offer with
  | none => rw [step, valueFor_none, Option.or_none]
  | some p =>
    obtain ⟨k', v⟩ := p
    cases hs : s.entries k' with
    | some w =>
      rw [step_of_set (by rw [hs]; rfl)]
      by_cases hk : k' = k
      · subst hk
        rw [hs, Option.some_or]
      · rw [valueFor_ne hk, Option.or_none]
    | none =>
      rw [step_of_unset hs]
      by_cases hk : k' = k
      · subst hk
        rw [valueFor_self, hs, Option.none_or]
        exact Function.update_self ..
      · rw [valueFor_ne hk, Option.or_none]
        exact Function.update_of_ne (Ne.symm hk) ..

/-- **Each key holds the value of the first offer for it.** -/
theorem run_entries (offers : List (Option (κ × ν))) (k : κ) :
    (run offers).entries k = offers.findSome? (valueFor k) := by
  have hfold : ∀ s : Store κ ν, (offers.foldl step s).entries k
      = (s.entries k).or (offers.findSome? (valueFor k)) := by
    induction offers with
    | nil => exact fun s => (Option.or_none).symm
    | cons offer offers ih =>
      intro s
      rw [List.foldl_cons, ih, step_entries, List.findSome?_cons, Option.or_assoc]
      cases valueFor k offer with
      | none => rfl
      | some v => rfl
  exact hfold Store.empty

/-- The log has exactly one entry for a key that is set, with its value, and none
for a key that is not. -/
def Logged (s : Store κ ν) : Prop :=
  ∀ k, s.log.filter (·.1 = k) = (s.entries k).toList.map fun v => (k, v)

theorem logged_step {s : Store κ ν} (h : Logged s) (offer : Option (κ × ν)) :
    Logged (step s offer) := by
  cases offer with
  | none => exact h
  | some p =>
    obtain ⟨k', v⟩ := p
    intro k
    cases hs : s.entries k' with
    | some w =>
      rw [step_of_set (by rw [hs]; rfl)]
      exact h k
    | none =>
      rw [step_of_unset hs]
      simp only [List.filter_append, h k]
      by_cases hk : k' = k
      · subst hk
        simp [hs]
      · simp [hk, Function.update_of_ne (Ne.symm hk)]

/-- **The log of a run.** -/
theorem run_log (offers : List (Option (κ × ν))) (k : κ) :
    (run offers).log.filter (·.1 = k)
      = ((run offers).entries k).toList.map fun v => (k, v) := by
  have hfold : ∀ s : Store κ ν, Logged s → Logged (offers.foldl step s) := by
    induction offers with
    | nil => exact fun s h => h
    | cons offer offers ih => exact fun s h => ih _ (logged_step h offer)
  exact hfold Store.empty (fun _ => rfl) k

end WriteOnce
