import ZkQuorum.Crypto.Additivity
import ZkQuorum.Crypto.Keys

/-!
# The double-scalar multiple of a multiple of G (crypto/src/riscv_fourq_verify.c)

For a multiple A of G, the loop of `ecc_mul_double` computes k G + l A (`mulDouble_multiple`): the
decomposition recombines to the scalars, the blocks of the table are the multiples of G by its
residues, and so are the images of A under the endomorphisms (**`endomorphisms_scale`**). The other
points of the curve are not covered, as the images of points of even order are not.
-/

namespace ZkQuorum.Crypto

open Edwards

/-! ## Scalars -/

theorem toNat_residue : ∀ i : Fin 2, ((residue.get i).toNat : Int) = residue.get i := by decide

theorem blockScalar_eq : blockScalar 0 = 1 ∧ blockScalar 1 = (residue.get 0).toNat ∧
    blockScalar 2 = (residue.get 1).toNat ∧
    blockScalar 3 = (residue.get 0).toNat * (residue.get 1).toNat % orderNat := by
  decide +kernel

/-- **The sub-scalars of a scalar recombine to it**, with the scalars of the blocks. -/
theorem sum_blockScalar (k : Words4) :
    ∑ j, ((decompose k).get j).toNat * blockScalar j ≡ Words.value k [MOD orderNat] := by
  have hrecombine := recombine_subScalar k
  have hsub : ∀ j, subScalar k j = (((decompose k).get j).toNat : Int) := fun j =>
    (toNat_decompose k j).symm
  rw [recombine, hsub, hsub, hsub, hsub] at hrecombine
  have hnat : ((decompose k).get 0).toNat + (residue.get 0).toNat * ((decompose k).get 1).toNat
        + (residue.get 1).toNat * ((decompose k).get 2).toNat
        + (residue.get 0).toNat * (residue.get 1).toNat * ((decompose k).get 3).toNat
      ≡ Words.value k [MOD orderNat] := by
    rw [← Int.natCast_modEq_iff]
    push_cast [toNat_residue]
    exact hrecombine
  refine Nat.ModEq.trans ?_ hnat
  obtain ⟨hzero, hone, htwo, hthree⟩ := blockScalar_eq
  -- only the scalar of the last block was reduced
  have hlast : ((decompose k).get 3).toNat * blockScalar 3
      ≡ (residue.get 0).toNat * (residue.get 1).toNat * ((decompose k).get 3).toNat
        [MOD orderNat] := by
    rw [hthree, mul_comm _ ((decompose k).get 3).toNat]
    exact Nat.ModEq.mul_left _ (Nat.mod_modEq _ _)
  have hfirst : ((decompose k).get 0).toNat * blockScalar 0
        + ((decompose k).get 1).toNat * blockScalar 1
        + ((decompose k).get 2).toNat * blockScalar 2
      = ((decompose k).get 0).toNat + (residue.get 0).toNat * ((decompose k).get 1).toNat
        + (residue.get 1).toNat * ((decompose k).get 2).toNat := by
    rw [hzero, hone, htwo]
    ring
  rw [Fin.sum_univ_four, hfirst]
  exact Nat.ModEq.add_left _ hlast

/-! ## The multiple -/

section Multiple

variable {Q : PointExtproj F2elm} {n : Nat}

theorem represents_endomorphisms (build : Build) (h : Represents Q (n • basePoint 0)) :
    Represents (eccPhi build.ops Q) (n • basePoint 1) ∧
      Represents (eccPsi build.ops Q) (n • basePoint 2) ∧
      Represents (eccPsi build.ops (eccPhi build.ops Q)) (n • basePoint 3) := by
  have hom := toFp2_hom build
  have hphi := represents_eccPhi h
  refine ⟨?_, ?_, ?_⟩
  · rw [Represents, hom.map_eccPhi]
    exact hphi
  · rw [Represents, hom.map_eccPsi]
    exact represents_eccPsi h
  · rw [basePoint_eq, ← mul_nsmul] at hphi
    have hpsi := represents_eccPsi hphi
    rw [basePoint_eq, ← mul_nsmul] at hpsi
    rw [Represents, hom.map_eccPsi, hom.map_eccPhi, basePoint_eq, ← mul_nsmul]
    have hscalar : blockScalar 2 * (blockScalar 1 * n) ≡ blockScalar 3 * n [MOD orderNat] := by
      rw [← mul_assoc, mul_comm (blockScalar 2)]
      exact Nat.ModEq.mul_right _ (Nat.mod_modEq _ _).symm
    rw [nsmul_basePoint_congr hscalar] at hpsi
    exact hpsi

theorem sum_basePoint (k : Words4) :
    ∑ j, ((decompose k).get j).toNat • basePoint j = Words.value k • basePoint 0 := by
  rw [← nsmul_basePoint_congr (sum_blockScalar k), Finset.sum_smul]
  refine Finset.sum_congr rfl fun j _ => ?_
  rw [basePoint_eq, ← mul_nsmul, mul_comm]

/-- The loop of `ecc_mul_double`, on a multiple of G. -/
theorem mulDouble_multiple (build : Build) (k l : Words4) (h : Represents Q (n • basePoint 0)) :
    Represents (mulDouble build.ops k l Q)
      (Words.value k • basePoint 0 + Words.value l • n • basePoint 0) := by
  obtain ⟨hphi, hpsi, hboth⟩ := represents_endomorphisms build h
  have hmul := represents_mulDouble build k l (q := fun j => n • basePoint j) h hphi hpsi hboth
  have hswap : ∑ j, ((decompose l).get j).toNat • n • basePoint j
      = n • ∑ j, ((decompose l).get j).toNat • basePoint j := by
    rw [Finset.smul_sum]
    exact Finset.sum_congr rfl fun j _ => nsmul_left_comm _ _ _
  rw [sum_basePoint, hswap, sum_basePoint, nsmul_left_comm] at hmul
  exact hmul

/-- **The endomorphisms scale the multiples of G**, by the scalars of the blocks of the table, with
which the sub-scalars of a scalar recombine to it. -/
theorem endomorphisms_scale (build : Build) (h : Represents Q (n • basePoint 0)) :
    Represents (eccPhi build.ops Q) ((blockScalar 1 * n) • basePoint 0) ∧
      Represents (eccPsi build.ops Q) ((blockScalar 2 * n) • basePoint 0) ∧
      Represents (eccPsi build.ops (eccPhi build.ops Q)) ((blockScalar 3 * n) • basePoint 0) ∧
      (∀ j, basePoint j = blockScalar j • basePoint 0) ∧
      ∀ k : Words4, ((decompose k).get 0).toNat + ∑ j : Fin 3,
        ((decompose k).get j.succ).toNat * blockScalar j.succ ≡ Words.value k [MOD orderNat] := by
  obtain ⟨hphi, hpsi, hboth⟩ := represents_endomorphisms build h
  have hscale : ∀ j, n • basePoint j = (blockScalar j * n) • basePoint 0 := by
    intro j
    rw [basePoint_eq, ← mul_nsmul]
  rw [hscale] at hphi hpsi hboth
  refine ⟨hphi, hpsi, hboth, basePoint_eq, ?_⟩
  intro k
  have hsum := sum_blockScalar k
  rw [Fin.sum_univ_succ, blockScalar_eq.1, Nat.mul_one] at hsum
  exact hsum

end Multiple

/-- The theorem at G. -/
theorem endomorphisms_scale_base :
    let Q := pointSetup Build.bigint2.ops (reduced (1 • basePoint 0))
    Represents (eccPhi Build.bigint2.ops Q) ((blockScalar 1 * 1) • basePoint 0) ∧
      Represents (eccPsi Build.bigint2.ops Q) ((blockScalar 2 * 1) • basePoint 0) ∧
      Represents (eccPsi Build.bigint2.ops (eccPhi Build.bigint2.ops Q))
        ((blockScalar 3 * 1) • basePoint 0) := by
  obtain ⟨hphi, hpsi, hboth, -⟩ :=
    endomorphisms_scale .bigint2 (represents_pointSetup .bigint2 (map_reduced (1 • basePoint 0)))
  exact ⟨hphi, hpsi, hboth⟩

end ZkQuorum.Crypto
