import HumanoidNavigation.Rotation.Kabsch
import Mathlib.Analysis.InnerProductSpace.SingularValues

/-!
# Singular value decompositions exist

Every square real matrix is `U * diagonal S * Vt` for orthogonal `U`, `Vt` and non-negative
descending `S` (`exists_isSvd`). The rows of `Vt` are eigenvectors of `Hᵀ * H`, and `H` maps them to
multiples of an orthonormal basis, the columns of `U`.
-/

namespace Kabsch

open Matrix Module

section LinearMap

variable {E : Type*} [NormedAddCommGroup E] [InnerProductSpace ℝ E] [FiniteDimensional ℝ E] {n : ℕ}

/-- The images of the eigenvectors of `T⋆ T` are orthogonal, with the singular values as norms. -/
lemma inner_apply_eigenvectorBasis (T : E →ₗ[ℝ] E) (hn : finrank ℝ E = n) (i j : Fin n) :
    inner ℝ (T (T.isSymmetric_adjoint_comp_self.eigenvectorBasis hn i))
        (T (T.isSymmetric_adjoint_comp_self.eigenvectorBasis hn j)) =
      if i = j then T.singularValues j ^ 2 else 0 := by
  set v := T.isSymmetric_adjoint_comp_self.eigenvectorBasis hn
  have hj : T.adjoint (T (v j)) = (T.singularValues j ^ 2 : ℝ) • v j := by
    rw [T.sq_singularValues_fin hn]
    exact T.isSymmetric_adjoint_comp_self.apply_eigenvectorBasis hn j
  rw [← LinearMap.adjoint_inner_right, hj, inner_smul_right, v.inner_eq_ite]
  split_ifs
  · rw [mul_one]
  · rw [mul_zero]

/-- A linear map takes some orthonormal basis to multiples of another one. -/
lemma exists_orthonormalBases (T : E →ₗ[ℝ] E) (hn : finrank ℝ E = n) :
    ∃ u v : OrthonormalBasis (Fin n) ℝ E, ∀ i, T (v i) = T.singularValues i • u i := by
  set v := T.isSymmetric_adjoint_comp_self.eigenvectorBasis hn
  let s : Set (Fin n) := {i | T.singularValues i ≠ 0}
  have hs : Orthonormal ℝ (s.domRestrict fun i => (T.singularValues i)⁻¹ • T (v i)) := by
    rw [orthonormal_iff_ite]
    rintro ⟨i, hi⟩ ⟨j, hj⟩
    replace hj : T.singularValues j ≠ 0 := hj
    simp only [Set.domRestrict_apply, inner_smul_left, inner_smul_right, Subtype.mk.injEq,
      inner_apply_eigenvectorBasis T hn i j, v]
    split_ifs with h
    · subst h
      simp only [conj_trivial]
      field_simp
    · simp
  obtain ⟨u, hu⟩ := hs.exists_orthonormalBasis_extension_of_card_eq (hn.trans
    (Fintype.card_fin n).symm)
  refine ⟨u, v, fun i => ?_⟩
  by_cases hi : T.singularValues i = 0
  · have hnorm := inner_apply_eigenvectorBasis T hn i i
    rw [if_pos rfl, hi, sq, zero_mul] at hnorm
    rw [hi, zero_smul]
    exact inner_self_eq_zero.mp hnorm
  · rw [hu i hi, smul_inv_smul₀ hi]

end LinearMap

variable {n : ℕ}

/-- The matrix with an orthonormal basis as its rows. -/
lemma orthonormalBasis_mem (b : OrthonormalBasis (Fin n) ℝ (EuclideanSpace ℝ (Fin n))) :
    (Matrix.of fun i j => b i j) ∈ orthogonalGroup (Fin n) ℝ := by
  rw [mem_orthogonalGroup_iff]
  ext i j
  have h := b.inner_eq_ite i j
  rw [PiLp.inner_apply] at h
  rw [mul_apply, one_apply, ← h]
  refine Finset.sum_congr rfl fun k _ => ?_
  simp [mul_comm]

theorem exists_isSvd (H : Matrix (Fin n) (Fin n) ℝ) : ∃ U S Vt,
    U ∈ orthogonalGroup (Fin n) ℝ ∧ Vt ∈ orthogonalGroup (Fin n) ℝ ∧ (∀ i, 0 ≤ S i) ∧
      Antitone S ∧ H = U * diagonal S * Vt := by
  obtain ⟨u, v, huv⟩ := exists_orthonormalBases (toEuclideanLin H)
    (finrank_euclideanSpace_fin (n := n))
  have hV := orthonormalBasis_mem v
  refine ⟨(Matrix.of fun i j => u i j)ᵀ, fun i => (toEuclideanLin H).singularValues i,
    Matrix.of fun i j => v i j, ?_, hV, fun i => LinearMap.singularValues_nonneg _ _,
    fun i j hij => LinearMap.singularValues_antitone _ hij, ?_⟩
  · rw [mem_orthogonalGroup_iff, transpose_transpose]
    exact (mem_orthogonalGroup_iff' (Fin n) ℝ).mp (orthonormalBasis_mem u)
  · have hcols : H * (Matrix.of fun i j => v i j)ᵀ =
        (Matrix.of fun i j => u i j)ᵀ *
          diagonal fun i : Fin n => (toEuclideanLin H).singularValues i := by
      ext i j
      have h := congrFun (congrArg WithLp.ofLp (huv j)) i
      rw [mul_diagonal, mul_apply]
      simpa [mulVec, dotProduct, mul_comm] using h
    rw [← hcols, mul_assoc, (mem_orthogonalGroup_iff' (Fin n) ℝ).mp hV, mul_one]

end Kabsch
