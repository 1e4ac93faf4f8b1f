import Mathlib.Data.Finset.Card

/-!
# Quorum certificates

A certificate for a statement is a set of voters, as many as the quorum asks for, who all signed
it. What a signature is stays open: `Signs i s` says that voter `i` signed the statement `s`.

- **`card_le_card_inter`**: two certificates among the same voters overlap in twice the quorum
  less the number of voters;
- **`exists_double_signers`**: the overlap signed both statements.
-/

namespace Quorum

variable {ι σ : Type} [DecidableEq ι]

/-- A set of voters large enough who all signed a statement. -/
structure Certificate (voters : Finset ι) (quorum : Nat) (Signs : ι → σ → Prop) (s : σ) where
  signers : Finset ι
  subset : signers ⊆ voters
  quorum_le : quorum ≤ signers.card
  signs : ∀ i ∈ signers, Signs i s

namespace Certificate

variable {voters : Finset ι} {quorum : Nat} {Signs : ι → σ → Prop} {s t : σ}

/-- The same signers, where they signed something else as well. -/
def mono {Signs' : ι → σ → Prop} (c : Certificate voters quorum Signs s)
    (h : ∀ i, Signs i s → Signs' i t) : Certificate voters quorum Signs' t where
  signers := c.signers
  subset := c.subset
  quorum_le := c.quorum_le
  signs i hi := h i (c.signs i hi)

/-- The overlap of two certificates. -/
theorem card_le_card_inter (c : Certificate voters quorum Signs s)
    (d : Certificate voters quorum Signs t) :
    2 * quorum ≤ (c.signers ∩ d.signers).card + voters.card := by
  have hunion := Finset.card_le_card (Finset.union_subset c.subset d.subset)
  have hsum := Finset.card_union_add_card_inter c.signers d.signers
  have hc := c.quorum_le
  have hd := d.quorum_le
  omega

/-- **Accountability**: the overlap signed both statements. -/
theorem exists_double_signers (c : Certificate voters quorum Signs s)
    (d : Certificate voters quorum Signs t) :
    ∃ both ⊆ voters, 2 * quorum ≤ both.card + voters.card ∧
      ∀ i ∈ both, Signs i s ∧ Signs i t := by
  refine ⟨c.signers ∩ d.signers, Finset.inter_subset_left.trans c.subset, c.card_le_card_inter d,
    fun i hi => ?_⟩
  obtain ⟨hc, hd⟩ := Finset.mem_inter.mp hi
  exact ⟨c.signs i hc, d.signs i hd⟩

end Certificate

end Quorum
