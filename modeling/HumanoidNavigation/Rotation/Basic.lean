import Mathlib.LinearAlgebra.CrossProduct
import Mathlib.LinearAlgebra.UnitaryGroup
import Mathlib.LinearAlgebra.Matrix.Notation
import Mathlib.Tactic.LinearCombination
import Mathlib.Tactic.FinCases
import Mathlib.Tactic.FieldSimp
import Mathlib.Tactic.Module
import Mathlib.Analysis.Real.Sqrt

/-!
# Rotations of space

Rotations are the elements of `Matrix.specialOrthogonalGroup (Fin 3) K`. The two descriptions that
programs use are here: Rodrigues' formula for the rotation that takes one unit vector onto another
(`rodrigues`), and the matrix of a quaternion (`ofQuaternion`).
-/

namespace Rotation

open Matrix

/-! ### Numerals -/

lemma neZero_three : NeZero 3 := ⟨by decide⟩

lemma neZero_four : NeZero 4 := ⟨by decide⟩

lemma atLeastTwo_two : Nat.AtLeastTwo 2 := ⟨le_rfl⟩

attribute [local instance] neZero_three neZero_four atLeastTwo_two

/-! ### Vectors under a rotation -/

section CommRing

variable {K : Type*} [CommRing K] {M : Matrix (Fin 3) (Fin 3) K} {v w : Fin 3 → K}

lemma mul_transpose (hM : M ∈ specialOrthogonalGroup (Fin 3) K) : M * Mᵀ = 1 :=
  (mem_orthogonalGroup_iff (Fin 3) K).mp (mem_specialOrthogonalGroup_iff.mp hM).1

lemma transpose_mul (hM : M ∈ specialOrthogonalGroup (Fin 3) K) : Mᵀ * M = 1 :=
  mul_eq_one_comm.mp (mul_transpose hM)

/-- A rotation keeps scalar products. -/
lemma mulVec_dotProduct_mulVec (hM : M ∈ specialOrthogonalGroup (Fin 3) K) :
    (M *ᵥ v) ⬝ᵥ (M *ᵥ w) = v ⬝ᵥ w := by
  rw [dotProduct_mulVec, ← mulVec_transpose, mulVec_mulVec, transpose_mul hM, one_mulVec]

/-! ### Rodrigues' formula -/

/-- The matrix of the cross product with `v`. -/
def skew (v : Fin 3 → K) : Matrix (Fin 3) (Fin 3) K :=
  !![0, -v 2, v 1; v 2, 0, -v 0; -v 1, v 0, 0]

lemma skew_mulVec : skew v *ᵥ w = v ⨯₃ w := by
  ext i
  fin_cases i <;> simp [skew, cross_apply, mulVec, dotProduct, Fin.sum_univ_three] <;> ring

/-- The polynomial `1 + [v] + k [v]²` in the cross product matrix of `v`. -/
def rodrigues (v : Fin 3 → K) (k : K) : Matrix (Fin 3) (Fin 3) K :=
  1 + skew v + k • (skew v * skew v)

lemma rodrigues_mulVec {k : K} : rodrigues v k *ᵥ w = w + v ⨯₃ w + k • (v ⨯₃ (v ⨯₃ w)) := by
  simp only [rodrigues, add_mulVec, one_mulVec, smul_mulVec, ← mulVec_mulVec, skew_mulVec]

lemma transpose_rodrigues {k : K} : (rodrigues v k)ᵀ = rodrigues (-v) k := by
  ext i j
  fin_cases i <;> fin_cases j <;> simp [rodrigues, skew] <;> ring

/-- Rodrigues' polynomial is a rotation when `k` has the value that the length of `v` asks for. -/
lemma rodrigues_mem {k : K} (hk : 2 * k = 1 + k ^ 2 * (v ⬝ᵥ v)) :
    rodrigues v k ∈ specialOrthogonalGroup (Fin 3) K := by
  simp only [dotProduct, Fin.sum_univ_three] at hk
  refine mem_specialOrthogonalGroup_iff.mpr ⟨(mem_orthogonalGroup_iff (Fin 3) K).mpr ?_, ?_⟩
  · change rodrigues v k * (rodrigues v k)ᵀ = 1
    rw [transpose_rodrigues]
    ext i j
    fin_cases i <;> fin_cases j <;>
      simp [rodrigues, skew, mul_apply, Fin.sum_univ_three] <;> grind
  · rw [det_fin_three]
    simp [rodrigues, skew]
    grind

section Align

variable {a b : Fin 3 → K}

lemma cross_cross_self (ha : a ⬝ᵥ a = 1) : (a ⨯₃ b) ⨯₃ a = b - (a ⬝ᵥ b) • a := by
  rw [cross_cross_eq_smul_sub_smul, ha, one_smul, dotProduct_comm]

lemma cross_dotProduct_cross (ha : a ⬝ᵥ a = 1) (hb : b ⬝ᵥ b = 1) :
    (a ⨯₃ b) ⬝ᵥ (a ⨯₃ b) = 1 - (a ⬝ᵥ b) ^ 2 := by
  rw [cross_dot_cross, ha, hb, dotProduct_comm b a]
  ring

/-- Rodrigues' formula takes the unit vector `a` onto the unit vector `b`. -/
lemma rodrigues_cross_mulVec {k : K} (ha : a ⬝ᵥ a = 1) (hb : b ⬝ᵥ b = 1)
    (hk : (1 + a ⬝ᵥ b) * k = 1) :
    rodrigues (a ⨯₃ b) k *ᵥ a = b := by
  have hcross : (a ⨯₃ b) ⨯₃ ((a ⨯₃ b) ⨯₃ a) = ((a ⬝ᵥ b) ^ 2 - 1) • a := by
    rw [cross_cross_eq_smul_sub_smul', dotProduct_comm, dot_self_cross,
      cross_dotProduct_cross ha hb]
    module
  rw [rodrigues_mulVec, hcross, cross_cross_self ha, smul_smul]
  have hcoeff : k * ((a ⬝ᵥ b) ^ 2 - 1) = a ⬝ᵥ b - 1 := by
    linear_combination (a ⬝ᵥ b - 1) * hk
  rw [hcoeff]
  module

/-- Rodrigues' formula for two unit vectors that are not opposite is a rotation. -/
lemma rodrigues_cross_mem {k : K} (ha : a ⬝ᵥ a = 1) (hb : b ⬝ᵥ b = 1)
    (hk : (1 + a ⬝ᵥ b) * k = 1) :
    rodrigues (a ⨯₃ b) k ∈ specialOrthogonalGroup (Fin 3) K := by
  apply rodrigues_mem
  rw [cross_dotProduct_cross ha hb]
  linear_combination (1 - k * (1 - a ⬝ᵥ b)) * hk

end Align

/-! ### Quaternions -/

/-- Four times the products of the coordinates `w, x, y, z` of a unit quaternion, read off the
matrix of its rotation. -/
def gram (M : Matrix (Fin 3) (Fin 3) K) : Matrix (Fin 4) (Fin 4) K :=
  !![1 + M 0 0 + M 1 1 + M 2 2, M 2 1 - M 1 2, M 0 2 - M 2 0, M 1 0 - M 0 1;
    M 2 1 - M 1 2, 1 + M 0 0 - M 1 1 - M 2 2, M 0 1 + M 1 0, M 0 2 + M 2 0;
    M 0 2 - M 2 0, M 0 1 + M 1 0, 1 - M 0 0 + M 1 1 - M 2 2, M 1 2 + M 2 1;
    M 1 0 - M 0 1, M 0 2 + M 2 0, M 1 2 + M 2 1, 1 - M 0 0 - M 1 1 + M 2 2]

/-- A rotation is its own matrix of cofactors. -/
lemma adjugate_eq_transpose (hM : M ∈ specialOrthogonalGroup (Fin 3) K) : M.adjugate = Mᵀ := by
  have h := mul_adjugate M
  rw [(mem_specialOrthogonalGroup_iff.mp hM).2, one_smul] at h
  calc M.adjugate = Mᵀ * M * M.adjugate := by rw [transpose_mul hM, one_mul]
    _ = Mᵀ := by rw [mul_assoc, h, mul_one]

lemma row_dotProduct_row (hM : M ∈ specialOrthogonalGroup (Fin 3) K) (i j : Fin 3) :
    M i 0 * M j 0 + M i 1 * M j 1 + M i 2 * M j 2 = if i = j then 1 else 0 := by
  have h := congrFun (congrFun (mul_transpose hM) i) j
  rwa [mul_apply, Fin.sum_univ_three, one_apply] at h

lemma col_dotProduct_col (hM : M ∈ specialOrthogonalGroup (Fin 3) K) (i j : Fin 3) :
    M 0 i * M 0 j + M 1 i * M 1 j + M 2 i * M 2 j = if i = j then 1 else 0 := by
  have h := congrFun (congrFun (transpose_mul hM) i) j
  rwa [mul_apply, Fin.sum_univ_three, one_apply] at h

lemma cofactor_eq (hM : M ∈ specialOrthogonalGroup (Fin 3) K) (i j : Fin 3) :
    M (i + 1) (j + 1) * M (i + 2) (j + 2) - M (i + 1) (j + 2) * M (i + 2) (j + 1) = M i j := by
  have h := congrFun (congrFun (adjugate_eq_transpose hM) j) i
  rw [adjugate_fin_three] at h
  fin_cases i <;> fin_cases j <;> simp at h ⊢ <;> grind

lemma gram_comm (i j : Fin 4) : gram M i j = gram M j i := by
  fin_cases i <;> fin_cases j <;> simp [gram]

lemma gram_zero_mul_gram (hM : M ∈ specialOrthogonalGroup (Fin 3) K) (j k : Fin 4) :
    gram M 0 0 * gram M j k = gram M 0 j * gram M 0 k := by
  have hrow := row_dotProduct_row hM
  have hcol := col_dotProduct_col hM
  have hcof := cofactor_eq hM
  simp [Fin.forall_fin_succ] at hrow hcol hcof
  fin_cases j <;> fin_cases k <;> simp [gram] <;> grind

lemma gram_succ_mul_gram (hM : M ∈ specialOrthogonalGroup (Fin 3) K) (i : Fin 3) (j k : Fin 4) :
    gram M i.succ i.succ * gram M j k = gram M i.succ j * gram M i.succ k := by
  by_cases hij : i.succ = j
  · rw [hij]
  by_cases hik : i.succ = k
  · rw [hik, gram_comm k j, mul_comm]
  have hrow := row_dotProduct_row hM
  have hcol := col_dotProduct_col hM
  have hcof := cofactor_eq hM
  simp [Fin.forall_fin_succ] at hrow hcol hcof
  fin_cases i <;> fin_cases j <;> fin_cases k <;> simp at hij hik <;> simp [gram] <;> grind

/-- The matrix `gram M` of a rotation has rank one. -/
lemma gram_mul_gram (hM : M ∈ specialOrthogonalGroup (Fin 3) K) (i j k : Fin 4) :
    gram M i i * gram M j k = gram M i j * gram M i k := by
  cases i using Fin.cases with
  | zero => exact gram_zero_mul_gram hM j k
  | succ i => exact gram_succ_mul_gram hM i j k

end CommRing

/-- The rotation of the quaternion `w + x i + y j + z k`, whose length is divided out. -/
def ofQuaternion {K : Type*} [Field K] (x y z w : K) : Matrix (Fin 3) (Fin 3) K :=
  let s := 2 / (x * x + y * y + z * z + w * w)
  !![1 - s * (y * y + z * z), s * (x * y - z * w), s * (x * z + y * w);
    s * (x * y + z * w), 1 - s * (x * x + z * z), s * (y * z - x * w);
    s * (x * z - y * w), s * (y * z + x * w), 1 - s * (x * x + y * y)]

lemma ofQuaternion_mem {K : Type*} [Field K] {x y z w : K}
    (h : x * x + y * y + z * z + w * w ≠ 0) :
    ofQuaternion x y z w ∈ specialOrthogonalGroup (Fin 3) K := by
  have hs : 2 / (x * x + y * y + z * z + w * w) * (x * x + y * y + z * z + w * w) = 2 :=
    div_mul_cancel₀ 2 h
  simp only [ofQuaternion]
  generalize 2 / (x * x + y * y + z * z + w * w) = s at hs
  refine mem_specialOrthogonalGroup_iff.mpr ⟨(mem_orthogonalGroup_iff (Fin 3) K).mpr ?_, ?_⟩
  · ext i j
    fin_cases i <;> fin_cases j <;>
      simp [mul_apply, Fin.sum_univ_three] <;> grind
  · rw [det_fin_three]
    simp
    grind

/-- A quaternion whose coordinates multiply as the matrix says has this matrix. -/
lemma ofQuaternion_of_gram {K : Type*} [Field K] [LinearOrder K] [IsStrictOrderedRing K]
    {M : Matrix (Fin 3) (Fin 3) K} {q : Fin 4 → K}
    (h : ∀ i j, 4 * (q i * q j) = gram M i j) :
    ofQuaternion (q 1) (q 2) (q 3) (q 0) = M := by
  simp only [gram, Fin.forall_fin_succ] at h
  simp at h
  have hone : q 1 * q 1 + q 2 * q 2 + q 3 * q 3 + q 0 * q 0 = 1 := by linarith
  ext i j
  fin_cases i <;> fin_cases j <;> simp [ofQuaternion, hone] <;> linarith

/-- The coordinate with the largest square, the first one of them in the order `x, y, z, w`. -/
def pivot {K : Type*} [Field K] [LinearOrder K] (M : Matrix (Fin 3) (Fin 3) K) : Fin 4 :=
  let g := fun i => gram M i i
  if g 2 ≤ g 1 ∧ g 3 ≤ g 1 ∧ g 0 ≤ g 1 then 1
  else if g 3 ≤ g 2 ∧ g 0 ≤ g 2 then 2
  else if g 0 ≤ g 3 then 3
  else 0

lemma gram_pivot_pos {K : Type*} [Field K] [LinearOrder K] [IsStrictOrderedRing K]
    (M : Matrix (Fin 3) (Fin 3) K) : 0 < gram M (pivot M) (pivot M) := by
  have htrace : gram M 0 0 + gram M 1 1 + gram M 2 2 + gram M 3 3 = 4 := by
    simp [gram]
    ring
  simp only [pivot]
  split_ifs with h₁ h₂ h₃
  · linarith
  · grind
  · grind
  · grind

/-- A row of `gram M`, divided by twice the root of its diagonal entry. -/
noncomputable def quaternionRow (M : Matrix (Fin 3) (Fin 3) ℝ) (p j : Fin 4) : ℝ :=
  gram M p j / (2 * √(gram M p p))

section

variable {M : Matrix (Fin 3) (Fin 3) ℝ} {p : Fin 4}

/-- Each row of a rotation has the coordinates of a quaternion for it. -/
lemma quaternionRow_mul_quaternionRow (hM : M ∈ specialOrthogonalGroup (Fin 3) ℝ)
    (hp : 0 < gram M p p) (j k : Fin 4) :
    4 * (quaternionRow M p j * quaternionRow M p k) = gram M j k := by
  have hsq : √(gram M p p) ^ 2 = gram M p p := Real.sq_sqrt hp.le
  simp only [quaternionRow]
  field_simp
  rw [hsq]
  linear_combination -4 * gram_mul_gram hM p j k

lemma quaternionRow_unit (hM : M ∈ specialOrthogonalGroup (Fin 3) ℝ) (hp : 0 < gram M p p) :
    quaternionRow M p 1 * quaternionRow M p 1 + quaternionRow M p 2 * quaternionRow M p 2 +
      quaternionRow M p 3 * quaternionRow M p 3 + quaternionRow M p 0 * quaternionRow M p 0 =
        1 := by
  have hrow := fun j => quaternionRow_mul_quaternionRow hM hp j j
  have htrace : gram M 1 1 + gram M 2 2 + gram M 3 3 + gram M 0 0 = 4 := by
    simp [gram]
    ring
  linarith [hrow 0, hrow 1, hrow 2, hrow 3]

end

/-- The coordinates `w, x, y, z` of a unit quaternion for a rotation: the row of the pivot. -/
noncomputable def toQuaternion (M : Matrix (Fin 3) (Fin 3) ℝ) (j : Fin 4) : ℝ :=
  gram M (pivot M) j / (2 * √(gram M (pivot M) (pivot M)))

theorem ofQuaternion_toQuaternion {M : Matrix (Fin 3) (Fin 3) ℝ}
    (hM : M ∈ specialOrthogonalGroup (Fin 3) ℝ) :
    ofQuaternion (toQuaternion M 1) (toQuaternion M 2) (toQuaternion M 3) (toQuaternion M 0) =
      M := by
  apply ofQuaternion_of_gram
  intro j k
  exact quaternionRow_mul_quaternionRow hM (gram_pivot_pos M) j k

/-- The matrix of a unit quaternion determines the products of its coordinates. -/
lemma gram_ofQuaternion {K : Type*} [Field K] {q : Fin 4 → K}
    (hq : q 1 * q 1 + q 2 * q 2 + q 3 * q 3 + q 0 * q 0 = 1) (i j : Fin 4) :
    gram (ofQuaternion (q 1) (q 2) (q 3) (q 0)) i j = 4 * (q i * q j) := by
  have hw : q 0 * q 0 = 1 - (q 1 * q 1 + q 2 * q 2 + q 3 * q 3) := by linear_combination hq
  simp only [ofQuaternion, hq, div_one]
  fin_cases i <;> fin_cases j <;> simp [gram, hw] <;> ring

/-- Coordinates with the same products agree up to sign. -/
lemma eq_or_eq_neg_of_mul_eq {K ι : Type*} [Field K] {q r : ι → K}
    (h : ∀ i j, q i * q j = r i * r j) : q = r ∨ q = -r := by
  by_cases hr : r = 0
  · left
    funext i
    have hi := h i i
    rw [hr] at hi ⊢
    simpa using hi
  · obtain ⟨i, hi⟩ := Function.ne_iff.mp hr
    rw [Pi.zero_apply] at hi
    rcases mul_self_eq_mul_self_iff.mp (h i i) with hqi | hqi
    · left
      funext j
      have hj := h i j
      rw [hqi] at hj
      exact mul_left_cancel₀ hi hj
    · right
      funext j
      have hj := h i j
      rw [hqi, neg_mul, ← mul_neg_one, mul_assoc, mul_right_inj' hi, mul_neg_one] at hj
      rw [Pi.neg_apply, ← hj, neg_neg]

end Rotation
