import Mathlib.Analysis.SpecialFunctions.Trigonometric.Basic
import Mathlib.LinearAlgebra.Matrix.NonsingularInverse
import Mathlib.LinearAlgebra.UnitaryGroup

/-!
# Rigid motions in homogeneous coordinates

`affine R t` is the matrix of `x ↦ R * x + t` on vectors with a last coordinate `1`. Proper rigid
motions (`IsRigid`) compose. `aboutZ a` is the rotation of space about the z axis by the angle `a`.
-/

namespace Rotation

open Matrix

variable {K : Type*} [CommRing K] {n : ℕ} {R R' : Matrix (Fin n) (Fin n) K} {t t' x : Fin n → K}
  {S T : Matrix (Fin (n + 1)) (Fin (n + 1)) K}

/-- The matrix of `x ↦ R * x + t`. -/
def affine (R : Matrix (Fin n) (Fin n) K) (t : Fin n → K) : Matrix (Fin (n + 1)) (Fin (n + 1)) K :=
  Fin.snoc (α := fun _ => Fin (n + 1) → K) (fun i => Fin.snoc (α := fun _ => K) (R i) (t i))
    (Fin.snoc (α := fun _ => K) 0 1)

@[simp] lemma affine_castSucc_castSucc (i j : Fin n) :
    affine R t i.castSucc j.castSucc = R i j := by
  simp [affine]

@[simp] lemma affine_castSucc_last (i : Fin n) : affine R t i.castSucc (Fin.last n) = t i := by
  simp [affine]

@[simp] lemma affine_last_castSucc (j : Fin n) : affine R t (Fin.last n) j.castSucc = 0 := by
  simp [affine]

@[simp] lemma affine_last_last : affine R t (Fin.last n) (Fin.last n) = 1 := by
  simp [affine]

lemma affine_mul (R R' : Matrix (Fin n) (Fin n) K) (t t' : Fin n → K) :
    affine R t * affine R' t' = affine (R * R') (R *ᵥ t' + t) := by
  ext i j
  rw [mul_apply, Fin.sum_univ_castSucc]
  refine Fin.lastCases ?_ (fun i => ?_) i <;> refine Fin.lastCases ?_ (fun j => ?_) j <;>
    simp [mul_apply, mulVec, dotProduct]

/-- The last row stays. -/
lemma affine_mul_last (R : Matrix (Fin n) (Fin n) K) (t : Fin n → K)
    (T : Matrix (Fin (n + 1)) (Fin (n + 1)) K) (j : Fin (n + 1)) :
    (affine R t * T) (Fin.last n) j = T (Fin.last n) j := by
  rw [mul_apply, Fin.sum_univ_castSucc]
  simp

lemma affine_one : affine (1 : Matrix (Fin n) (Fin n) K) 0 = 1 := by
  ext i j
  refine Fin.lastCases ?_ (fun i => ?_) i <;> refine Fin.lastCases ?_ (fun j => ?_) j
  · simp
  · simp [one_apply, (Fin.castSucc_lt_last j).ne']
  · simp [one_apply, (Fin.castSucc_lt_last i).ne]
  · simp [one_apply]

/-- The first coordinates of the image of `x` with a last coordinate `1`. -/
def act (T : Matrix (Fin (n + 1)) (Fin (n + 1)) K) (x : Fin n → K) : Fin n → K :=
  fun i => (T *ᵥ Fin.snoc (α := fun _ => K) x 1) i.castSucc

@[simp] lemma act_affine (R : Matrix (Fin n) (Fin n) K) (t x : Fin n → K) :
    act (affine R t) x = R *ᵥ x + t := by
  funext i
  simp [act, mulVec, dotProduct, Fin.sum_univ_castSucc]

@[simp] lemma act_one (x : Fin n → K) : act 1 x = x := by
  rw [← affine_one, act_affine, one_mulVec, add_zero]

/-- The motion is a proper rotation and a translation. -/
def IsRigid (T : Matrix (Fin (n + 1)) (Fin (n + 1)) K) : Prop :=
  ∃ R ∈ specialOrthogonalGroup (Fin n) K, ∃ t, T = affine R t

lemma isRigid_affine (hR : R ∈ specialOrthogonalGroup (Fin n) K) (t : Fin n → K) :
    IsRigid (affine R t) := ⟨R, hR, t, rfl⟩

lemma isRigid_one : IsRigid (1 : Matrix (Fin (n + 1)) (Fin (n + 1)) K) :=
  ⟨1, one_mem _, 0, affine_one.symm⟩

lemma IsRigid.mul (hS : IsRigid S) (hT : IsRigid T) : IsRigid (S * T) := by
  obtain ⟨R, hR, t, rfl⟩ := hS
  obtain ⟨R', hR', t', rfl⟩ := hT
  rw [affine_mul]
  exact isRigid_affine (mul_mem hR hR') _

lemma act_mul (hT : IsRigid T) (x : Fin n → K) : act (S * T) x = act S (act T x) := by
  obtain ⟨R, -, t, rfl⟩ := hT
  have hlast : affine R t *ᵥ Fin.snoc (α := fun _ => K) x 1 =
      Fin.snoc (α := fun _ => K) (act (affine R t) x) 1 := by
    funext i
    refine Fin.lastCases ?_ (fun i => ?_) i
    · simp [mulVec, dotProduct, Fin.sum_univ_castSucc]
    · rw [Fin.snoc_castSucc, act]
  funext i
  rw [act, act, ← mulVec_mulVec, hlast]

/-! ### Inverses -/

lemma transpose_mem (hR : R ∈ specialOrthogonalGroup (Fin n) K) :
    Rᵀ ∈ specialOrthogonalGroup (Fin n) K := by
  rw [mem_specialOrthogonalGroup_iff, mem_orthogonalGroup_iff, det_transpose] at *
  exact ⟨mul_eq_one_comm.mp hR.1, hR.2⟩

lemma affine_mul_affine_transpose (hR : R ∈ specialOrthogonalGroup (Fin n) K) (t : Fin n → K) :
    affine R t * affine Rᵀ (-(Rᵀ *ᵥ t)) = 1 := by
  have hmul : R * Rᵀ = 1 := (mem_orthogonalGroup_iff (Fin n) K).mp
    (mem_specialOrthogonalGroup_iff.mp hR).1
  rw [affine_mul, mulVec_neg, mulVec_mulVec, hmul, one_mulVec, neg_add_cancel, affine_one]

lemma IsRigid.exists_mul_eq_one (hT : IsRigid T) : ∃ T', IsRigid T' ∧ T * T' = 1 := by
  obtain ⟨R, hR, t, rfl⟩ := hT
  exact ⟨_, isRigid_affine (transpose_mem hR) _, affine_mul_affine_transpose hR t⟩

lemma IsRigid.inv (hT : IsRigid T) : IsRigid T⁻¹ := by
  obtain ⟨T', hT', hmul⟩ := hT.exists_mul_eq_one
  rwa [inv_eq_right_inv hmul]

lemma IsRigid.inv_mul (hT : IsRigid T) : T⁻¹ * T = 1 := by
  obtain ⟨T', -, hmul⟩ := hT.exists_mul_eq_one
  rw [inv_eq_right_inv hmul]
  exact mul_eq_one_comm.mp hmul

/-! ### Rotations about the z axis -/

/-- The rotation about the z axis by an angle. -/
noncomputable def aboutZ (a : ℝ) : Matrix (Fin 3) (Fin 3) ℝ :=
  !![Real.cos a, -Real.sin a, 0; Real.sin a, Real.cos a, 0; 0, 0, 1]

lemma aboutZ_mul (a b : ℝ) : aboutZ a * aboutZ b = aboutZ (a + b) := by
  ext i j
  fin_cases i <;> fin_cases j <;>
    simp [aboutZ, mul_apply, Fin.sum_univ_three, Real.cos_add, Real.sin_add] <;> ring

lemma aboutZ_zero : aboutZ 0 = 1 := by
  ext i j
  fin_cases i <;> fin_cases j <;> simp [aboutZ]

lemma transpose_aboutZ (a : ℝ) : (aboutZ a).transpose = aboutZ (-a) := by
  ext i j
  fin_cases i <;> fin_cases j <;> simp [aboutZ]

lemma aboutZ_mem (a : ℝ) : aboutZ a ∈ specialOrthogonalGroup (Fin 3) ℝ := by
  rw [mem_specialOrthogonalGroup_iff, mem_orthogonalGroup_iff, transpose_aboutZ, aboutZ_mul,
    add_neg_cancel]
  refine ⟨aboutZ_zero, ?_⟩
  rw [det_fin_three]
  simp [aboutZ, ← pow_two]

end Rotation
