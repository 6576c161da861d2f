import Mathlib.LinearAlgebra.Matrix.DotProduct
import Mathlib.LinearAlgebra.Matrix.ToLinearEquiv
import Mathlib.LinearAlgebra.UnitaryGroup
import Mathlib.Tactic.LinearCombination

/-!
# The rotation that fits two families of points

The proper rigid motion that takes a family of points closest to another one, in the sum of squared
distances, takes the centroid to the centroid, and its rotation maximises `trace (R * H)`, where `H`
is the cross-covariance (`squaredError_eq`). A decomposition `H = U * diagonal S * Vt` gives that
rotation: `Vtᵀ * Uᵀ`, with the row of the least singular value turned around when this is a
reflection (`fit`). The dimension is arbitrary.
-/

namespace Kabsch

open Matrix

variable {ι κ K : Type*} [Fintype ι] [DecidableEq ι] [Fintype κ] [Field K] [LinearOrder K]
  [IsStrictOrderedRing K] {W R H U Vt : Matrix ι ι K} {S v : ι → K} {l : ι} {p q : κ → ι → K}

/-! ### Traces of orthogonal matrices -/

lemma apply_le_one (hW : W ∈ orthogonalGroup ι K) (i : ι) : W i i ≤ 1 := by
  have hrow : ∑ j, W i j * W i j = 1 := by
    simpa [mul_apply] using congrFun₂ ((mem_orthogonalGroup_iff ι K).mp hW) i i
  have hle : W i i * W i i ≤ 1 := by
    rw [← hrow]
    exact Finset.single_le_sum (fun j _ => mul_self_nonneg (W i j)) (Finset.mem_univ i)
  exact le_of_abs_le (abs_le_one_iff_mul_self_le_one.mpr hle)

lemma trace_le_card (hW : W ∈ orthogonalGroup ι K) : W.trace ≤ Fintype.card ι := by
  calc W.trace = ∑ i, W i i := rfl
    _ ≤ ∑ _i : ι, 1 := Finset.sum_le_sum fun i _ => apply_le_one hW i
    _ = Fintype.card ι := by simp

/-- A reflection turns some vector around. -/
lemma exists_mulVec_eq_neg (hW : W ∈ orthogonalGroup ι K) (hdet : W.det = -1) :
    ∃ v ≠ 0, W *ᵥ v = -v := by
  have hsum : W * (1 + W)ᵀ = 1 + W := by
    rw [transpose_add, transpose_one, mul_add, mul_one, (mem_orthogonalGroup_iff ι K).mp hW,
      add_comm]
  have hzero : (1 + W).det = 0 := by
    have h := congrArg det hsum
    rw [det_mul, det_transpose, hdet] at h
    linarith
  obtain ⟨v, hv, h⟩ := exists_mulVec_eq_zero_iff.mpr hzero
  refine ⟨v, hv, ?_⟩
  rw [add_mulVec, one_mulVec] at h
  exact eq_neg_of_add_eq_zero_right h

/-- A reflection that turns `v` around, followed by the reflection at `v`. -/
lemma add_vecMulVec_mem (hW : W ∈ orthogonalGroup ι K) (hv : W *ᵥ v = -v) (hne : v ⬝ᵥ v ≠ 0) :
    W + (2 / (v ⬝ᵥ v)) • vecMulVec v v ∈ orthogonalGroup ι K := by
  have hmul : W * vecMulVec v v = -vecMulVec v v := by
    rw [mul_vecMulVec, hv, neg_vecMulVec]
  have hmul' : vecMulVec v v * Wᵀ = -vecMulVec v v := by
    rw [vecMulVec_mul, vecMul_transpose, hv, vecMulVec_neg]
  have hsq : vecMulVec v v * vecMulVec v v = (v ⬝ᵥ v) • vecMulVec v v := by
    rw [vecMulVec_mul_vecMulVec, vecMulVec_smul]
  have hc : 2 / (v ⬝ᵥ v) * (2 / (v ⬝ᵥ v) * (v ⬝ᵥ v)) = 2 / (v ⬝ᵥ v) + 2 / (v ⬝ᵥ v) := by
    field_simp
    ring
  rw [mem_orthogonalGroup_iff, transpose_add, transpose_smul, transpose_vecMulVec, add_mul, mul_add,
    mul_add, (mem_orthogonalGroup_iff ι K).mp hW, mul_smul_comm, hmul, smul_mul_assoc, hmul',
    smul_mul_smul_comm, hsq, smul_smul, mul_assoc, hc, add_smul, smul_neg]
  abel

lemma trace_le_card_sub_two (hW : W ∈ orthogonalGroup ι K) (hdet : W.det = -1) :
    W.trace ≤ Fintype.card ι - 2 := by
  obtain ⟨v, hne, hv⟩ := exists_mulVec_eq_neg hW hdet
  have hpos : v ⬝ᵥ v ≠ 0 := fun h => hne (dotProduct_self_eq_zero.mp h)
  have hle := trace_le_card (add_vecMulVec_mem hW hv hpos)
  rw [trace_add, trace_smul, trace_vecMulVec, smul_eq_mul, div_mul_cancel₀ _ hpos] at hle
  exact le_sub_iff_add_le.mpr hle

omit [LinearOrder K] [IsStrictOrderedRing K] in
lemma trace_mul_diagonal (W : Matrix ι ι K) (S : ι → K) :
    (W * diagonal S).trace = ∑ i, W i i * S i := by
  simp [trace, mul_diagonal]

lemma trace_mul_diagonal_le (hW : W ∈ orthogonalGroup ι K) (hS : ∀ i, 0 ≤ S i) :
    (W * diagonal S).trace ≤ ∑ i, S i := by
  rw [trace_mul_diagonal]
  exact Finset.sum_le_sum fun i _ => mul_le_of_le_one_left (hS i) (apply_le_one hW i)

/-- For a reflection the least weight counts the other way. -/
lemma trace_mul_diagonal_le_of_det (hW : W ∈ orthogonalGroup ι K) (hdet : W.det = -1)
    (hpos : 0 ≤ S l) (hl : ∀ i, S l ≤ S i) :
    (W * diagonal S).trace ≤ ∑ i, S i - 2 * S l := by
  have hsub : (W * diagonal fun i => S i - S l).trace ≤ ∑ i, (S i - S l) :=
    trace_mul_diagonal_le hW fun i => sub_nonneg.mpr (hl i)
  have htrace : W.trace * S l ≤ (Fintype.card ι - 2) * S l :=
    mul_le_mul_of_nonneg_right (trace_le_card_sub_two hW hdet) hpos
  have hsplit : (W * diagonal S).trace =
      (W * diagonal fun i => S i - S l).trace + W.trace * S l := by
    rw [trace_mul_diagonal, trace_mul_diagonal, trace, Finset.sum_mul, ← Finset.sum_add_distrib]
    refine Finset.sum_congr rfl fun i _ => ?_
    rw [diag_apply]
    ring
  have hsum : ∑ i, (S i - S l) = ∑ i, S i - Fintype.card ι * S l := by
    simp [Finset.sum_sub_distrib]
  linarith

/-! ### The rotation of a decomposition -/

/-- A singular value decomposition of `H` with the least singular value at `l`. -/
structure IsSvd (H U : Matrix ι ι K) (S : ι → K) (Vt : Matrix ι ι K) (l : ι) : Prop where
  left : U ∈ orthogonalGroup ι K
  right : Vt ∈ orthogonalGroup ι K
  nonneg : ∀ i, 0 ≤ S i
  least : ∀ i, S l ≤ S i
  eq : H = U * diagonal S * Vt

/-- The signs that turn the coordinate `l` around. -/
def signs (K : Type*) [Field K] (l : ι) : ι → K := fun i => if i = l then -1 else 1

/-- `Vt` with its row `l` turned around. -/
def flip (l : ι) (Vt : Matrix ι ι K) : Matrix ι ι K := Vt.updateRow l (-Vt l)

/-- The rotation that a decomposition gives. -/
def fit (l : ι) (U Vt : Matrix ι ι K) : Matrix ι ι K :=
  if (Vtᵀ * Uᵀ).det < 0 then (flip l Vt)ᵀ * Uᵀ else Vtᵀ * Uᵀ

omit [LinearOrder K] [IsStrictOrderedRing K] in
lemma flip_eq (l : ι) (Vt : Matrix ι ι K) : flip l Vt = diagonal (signs K l) * Vt := by
  ext i j
  rw [flip, updateRow_apply, diagonal_mul, signs]
  split_ifs with h
  · rw [h, Pi.neg_apply, neg_one_mul]
  · rw [one_mul]

omit [LinearOrder K] [IsStrictOrderedRing K] in
lemma diagonal_signs_mem (l : ι) : diagonal (signs K l) ∈ orthogonalGroup ι K := by
  rw [mem_orthogonalGroup_iff, diagonal_transpose, diagonal_mul_diagonal, ← diagonal_one]
  congr 1
  funext i
  simp only [signs]
  split_ifs <;> norm_num

omit [LinearOrder K] [IsStrictOrderedRing K] in
lemma det_diagonal_signs (l : ι) : (diagonal (signs K l)).det = -1 := by
  rw [det_diagonal]
  simp [signs, Finset.prod_ite_eq']

omit [LinearOrder K] [IsStrictOrderedRing K] in
lemma sum_signs_mul (l : ι) (S : ι → K) : ∑ i, signs K l i * S i = ∑ i, S i - 2 * S l := by
  have hterm (i : ι) : signs K l i * S i = S i - if i = l then 2 * S i else 0 := by
    rw [signs]
    split_ifs <;> ring
  simp [hterm, Finset.sum_sub_distrib]

omit [LinearOrder K] [IsStrictOrderedRing K] in
lemma transpose_mul_transpose_mem (hU : U ∈ orthogonalGroup ι K) (hVt : Vt ∈ orthogonalGroup ι K) :
    Vtᵀ * Uᵀ ∈ orthogonalGroup ι K := by
  have hUU := (mem_orthogonalGroup_iff' ι K).mp hU
  have hVV := (mem_orthogonalGroup_iff' ι K).mp hVt
  rw [mem_orthogonalGroup_iff, transpose_mul, transpose_transpose, transpose_transpose, mul_assoc,
    ← mul_assoc Uᵀ, hUU, one_mul, hVV]

lemma det_eq_one_or_neg_one (hW : W ∈ orthogonalGroup ι K) : W.det = 1 ∨ W.det = -1 := by
  have h := congrArg det ((mem_orthogonalGroup_iff ι K).mp hW)
  rw [det_mul, det_transpose, det_one] at h
  exact mul_self_eq_one_iff.mp h

/-- It is proper. -/
lemma fit_mem (l : ι) (hU : U ∈ orthogonalGroup ι K) (hVt : Vt ∈ orthogonalGroup ι K) :
    fit l U Vt ∈ specialOrthogonalGroup ι K := by
  have hmem := transpose_mul_transpose_mem hU hVt
  rw [fit]
  split_ifs with hneg
  · refine mem_specialOrthogonalGroup_iff.mpr ⟨?_, ?_⟩
    · rw [flip_eq]
      exact transpose_mul_transpose_mem hU (mul_mem (diagonal_signs_mem l) hVt)
    · have hdet : (Vtᵀ * Uᵀ).det = -1 :=
        (det_eq_one_or_neg_one hmem).resolve_left fun h => by linarith
      rw [flip_eq, transpose_mul, diagonal_transpose, mul_assoc, det_mul, det_mul,
        det_diagonal_signs]
      rw [det_mul] at hdet
      linear_combination -hdet
  · refine mem_specialOrthogonalGroup_iff.mpr ⟨hmem, ?_⟩
    exact (det_eq_one_or_neg_one hmem).resolve_right fun h => by linarith

omit [LinearOrder K] [IsStrictOrderedRing K] in
/-- The trace in the coordinates of the decomposition. -/
lemma trace_mul_eq (R U Vt : Matrix ι ι K) (S : ι → K) :
    (R * (U * diagonal S * Vt)).trace = (Vt * R * U * diagonal S).trace := by
  rw [← mul_assoc, trace_mul_cycle, ← mul_assoc]

/-- No proper rotation has a larger trace. -/
lemma trace_mul_le_fit (h : IsSvd H U S Vt l) (hR : R ∈ specialOrthogonalGroup ι K) :
    (R * H).trace ≤ (fit l U Vt * H).trace := by
  obtain ⟨hR, hdetR⟩ := mem_specialOrthogonalGroup_iff.mp hR
  have hW : Vt * R * U ∈ orthogonalGroup ι K := mul_mem (mul_mem h.right hR) h.left
  have hUU := (mem_orthogonalGroup_iff' ι K).mp h.left
  have hVV := (mem_orthogonalGroup_iff ι K).mp h.right
  rw [h.eq, trace_mul_eq, trace_mul_eq, fit]
  split_ifs with hneg
  · have hdet : (Vt * R * U).det = -1 := by
      have hdet' := (det_eq_one_or_neg_one
        (transpose_mul_transpose_mem h.left h.right)).resolve_left fun h => by linarith
      rw [det_mul, det_transpose, det_transpose] at hdet'
      rw [det_mul, det_mul, hdetR, mul_one, hdet']
    have hfit : Vt * ((flip l Vt)ᵀ * Uᵀ) * U = diagonal (signs K l) := by
      rw [flip_eq, transpose_mul, diagonal_transpose, mul_assoc, mul_assoc, hUU, mul_one,
        ← mul_assoc, hVV, one_mul]
    rw [hfit, trace_mul_diagonal (diagonal _)]
    simp only [diagonal_apply_eq, sum_signs_mul]
    exact trace_mul_diagonal_le_of_det hW hdet (h.nonneg l) h.least
  · have hfit : Vt * (Vtᵀ * Uᵀ) * U = 1 := by
      rw [mul_assoc, mul_assoc, hUU, mul_one, hVV]
    rw [hfit, one_mul, trace_diagonal]
    exact trace_mul_diagonal_le hW h.nonneg

/-! ### Squared distances -/

/-- The sum of the squared distances of the moved points `p` to the points `q`. -/
def squaredError (p q : κ → ι → K) (R : Matrix ι ι K) (t : ι → K) : K :=
  ∑ k, (R *ᵥ p k + t - q k) ⬝ᵥ (R *ᵥ p k + t - q k)

def centroid (p : κ → ι → K) : ι → K := (Fintype.card κ : K)⁻¹ • ∑ k, p k

def crossCovariance (p q : κ → ι → K) : Matrix ι ι K :=
  ∑ k, vecMulVec (p k - centroid p) (q k - centroid q)

omit [Fintype ι] [DecidableEq ι] in
lemma sum_sub_centroid (p : κ → ι → K) : ∑ k, (p k - centroid p) = 0 := by
  rcases isEmpty_or_nonempty κ with hκ | hκ
  · exact Fintype.sum_empty _
  · have hcard : (Fintype.card κ : K) ≠ 0 := Nat.cast_ne_zero.mpr Fintype.card_ne_zero
    rw [Finset.sum_sub_distrib, Finset.sum_const, Finset.card_univ, ← Nat.cast_smul_eq_nsmul K,
      centroid, smul_inv_smul₀ hcard, sub_self]

omit [DecidableEq ι] in
/-- The distances about the centroids. -/
lemma squaredError_eq_add (R : Matrix ι ι K) (t : ι → K) :
    squaredError p q R t =
      ∑ k, (R *ᵥ (p k - centroid p) - (q k - centroid q)) ⬝ᵥ
        (R *ᵥ (p k - centroid p) - (q k - centroid q)) +
      Fintype.card κ * ((R *ᵥ centroid p + t - centroid q) ⬝ᵥ
        (R *ᵥ centroid p + t - centroid q)) := by
  set a : κ → ι → K := fun k => R *ᵥ (p k - centroid p) - (q k - centroid q)
  set c : ι → K := R *ᵥ centroid p + t - centroid q
  have hsum : ∑ k, a k = 0 := by
    rw [Finset.sum_sub_distrib, ← mulVec_sum, sum_sub_centroid, sum_sub_centroid, mulVec_zero,
      sub_zero]
  have hk (k : κ) : R *ᵥ p k + t - q k = a k + c := by
    simp only [a, c, mulVec_sub]
    abel
  have hexpand (k : κ) : (a k + c) ⬝ᵥ (a k + c) = a k ⬝ᵥ a k + 2 * (a k ⬝ᵥ c) + c ⬝ᵥ c := by
    rw [add_dotProduct, dotProduct_add, dotProduct_add, dotProduct_comm c]
    ring
  simp only [squaredError, hk, hexpand, Finset.sum_add_distrib, ← Finset.mul_sum]
  rw [← sum_dotProduct, hsum, zero_dotProduct, mul_zero, add_zero, Finset.sum_const,
    Finset.card_univ, nsmul_eq_mul]

omit [DecidableEq ι] [LinearOrder K] [IsStrictOrderedRing K] in
lemma trace_mul_crossCovariance (R : Matrix ι ι K) :
    (R * crossCovariance p q).trace =
      ∑ k, R *ᵥ (p k - centroid p) ⬝ᵥ (q k - centroid q) := by
  simp only [crossCovariance, Finset.mul_sum, trace_sum, mul_vecMulVec, trace_vecMulVec]

omit [LinearOrder K] [IsStrictOrderedRing K] in
lemma dotProduct_mulVec_self (hR : R ∈ orthogonalGroup ι K) (v : ι → K) :
    R *ᵥ v ⬝ᵥ R *ᵥ v = v ⬝ᵥ v := by
  rw [dotProduct_mulVec, vecMul_mulVec, (mem_orthogonalGroup_iff' ι K).mp hR, vecMul_one]

/-- The squared error, for an orthogonal matrix. -/
lemma squaredError_eq (hR : R ∈ orthogonalGroup ι K) (t : ι → K) :
    squaredError p q R t =
      ∑ k, ((p k - centroid p) ⬝ᵥ (p k - centroid p) + (q k - centroid q) ⬝ᵥ (q k - centroid q)) -
      2 * (R * crossCovariance p q).trace +
      Fintype.card κ * ((R *ᵥ centroid p + t - centroid q) ⬝ᵥ
        (R *ᵥ centroid p + t - centroid q)) := by
  rw [squaredError_eq_add, trace_mul_crossCovariance, Finset.mul_sum, ← Finset.sum_sub_distrib]
  congr 1
  refine Finset.sum_congr rfl fun k _ => ?_
  generalize p k - centroid p = a, q k - centroid q = b
  rw [sub_dotProduct, dotProduct_sub, dotProduct_sub, dotProduct_mulVec_self hR,
    dotProduct_comm b]
  ring

/-- No proper rigid motion has a smaller squared error. -/
theorem squaredError_fit_le (h : IsSvd (crossCovariance p q) U S Vt l)
    (hR : R ∈ specialOrthogonalGroup ι K) (t : ι → K) :
    squaredError p q (fit l U Vt) (centroid q - fit l U Vt *ᵥ centroid p) ≤
      squaredError p q R t := by
  have hfit := (mem_specialOrthogonalGroup_iff.mp (fit_mem l h.left h.right)).1
  have hle := trace_mul_le_fit h hR
  have hnonneg : 0 ≤ (R *ᵥ centroid p + t - centroid q) ⬝ᵥ (R *ᵥ centroid p + t - centroid q) :=
    Finset.sum_nonneg fun i _ => mul_self_nonneg _
  have hrest := mul_nonneg (Nat.cast_nonneg (α := K) (Fintype.card κ)) hnonneg
  rw [squaredError_eq hfit, squaredError_eq (mem_specialOrthogonalGroup_iff.mp hR).1,
    add_sub_cancel, sub_self, zero_dotProduct, mul_zero, add_zero]
  linarith

end Kabsch
