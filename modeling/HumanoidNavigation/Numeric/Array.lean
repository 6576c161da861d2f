import HumanoidNavigation.Numeric.PyReal
import HumanoidNavigation.Rotation.Basic
import HumanoidNavigation.Rotation.RigidMotion
import Mathlib.LinearAlgebra.Matrix.Determinant.Basic

/-!
# Arrays

The `numpy` operations on matrices and lists of points that the registration code uses. In exact
arithmetic they are those of linear algebra.
-/

namespace NpArray

open PyFloat

section

variable {F : Type} [PyFloat F] {l m n : ℕ}

/-- `xs.sum()` -/
def sum (xs : List F) : F := xs.foldr (· + ·) (lit 0)

/-- `pts.mean(0)` -/
def mean (pts : List (Fin n → F)) : Fin n → F :=
  fun i => npDiv (sum (pts.map (· i))) (lit pts.length)

/-- `A @ B` -/
def matMul (A : Matrix (Fin l) (Fin m) F) (B : Matrix (Fin m) (Fin n) F) :
    Matrix (Fin l) (Fin n) F :=
  fun i j => sum ((List.finRange m).map fun k => A i k * B k j)

/-- `A @ v` -/
def matVec (A : Matrix (Fin m) (Fin n) F) (v : Fin n → F) : Fin m → F :=
  fun i => sum ((List.finRange n).map fun k => A i k * v k)

/-- `v @ A` -/
def vecMul (v : Fin m → F) (A : Matrix (Fin m) (Fin n) F) : Fin n → F :=
  fun j => sum ((List.finRange m).map fun k => v k * A k j)

/-- `np.dot(u, v)` -/
def dot (u v : Fin n → F) : F := sum ((List.finRange n).map fun k => u k * v k)

/-- `np.linalg.norm(v)` -/
def npNorm (v : Fin n → F) : F := npSqrt (dot v v)

/-- `np.linalg.det(A)`, expanded along the first row -/
def det : {n : ℕ} → Matrix (Fin n) (Fin n) F → F
  | 0, _ => lit 1
  | k + 1, A => sum ((List.finRange (k + 1)).map fun j =>
      lit ((-1) ^ j.val) * A 0 j * det (A.submatrix Fin.succ j.succAbove))

/-- `np.eye(n + 1)` with the rotation `R` and the translation `t` -/
def eyeWith (R : Matrix (Fin n) (Fin n) F) (t : Fin n → F) :
    Matrix (Fin (n + 1)) (Fin (n + 1)) F :=
  Fin.snoc (α := fun _ => Fin (n + 1) → F) (fun i => Fin.snoc (α := fun _ => F) (R i) (t i))
    (Fin.snoc (α := fun _ => F) (fun _ => lit 0) (lit 1))

/-- A row of `_transform_pts(pts, T)` -/
def transformPt (T : Matrix (Fin (n + 1)) (Fin (n + 1)) F) (p : Fin n → F) : Fin n → F :=
  fun i => matVec T (Fin.snoc (α := fun _ => F) p (lit 1)) i.castSucc

/-- `_transform_pts` -/
def transformPts (pts : List (Fin n → F)) (T : Matrix (Fin (n + 1)) (Fin (n + 1)) F) :
    List (Fin n → F) :=
  pts.map (transformPt T)

attribute [local instance] Rotation.neZero_three in
/-- `np.cross(u, v)` -/
def cross (u v : Fin 3 → F) : Fin 3 → F :=
  ![u 1 * v 2 - u 2 * v 1, u 2 * v 0 - u 0 * v 2, u 0 * v 1 - u 1 * v 0]

end

/-! ### Exact arithmetic -/

section Real

open Matrix Rotation

attribute [local instance] PyFloat.real

variable {l m n : ℕ}

@[simp] lemma sum_eq (xs : List ℝ) : sum xs = xs.sum := by
  simp [sum, List.sum]

@[simp] lemma mean_eq (pts : List (Fin n → ℝ)) (i : Fin n) :
    mean pts i = (pts.map (· i)).sum / pts.length := by
  simp [mean, npDiv]

@[simp] lemma matMul_eq (A : Matrix (Fin l) (Fin m) ℝ) (B : Matrix (Fin m) (Fin n) ℝ) :
    matMul A B = A * B := by
  ext i j
  rw [matMul, sum_eq, mul_apply, Fin.sum_univ_def]

@[simp] lemma matVec_eq (A : Matrix (Fin m) (Fin n) ℝ) (v : Fin n → ℝ) : matVec A v = A *ᵥ v := by
  funext i
  rw [matVec, sum_eq, mulVec, dotProduct, Fin.sum_univ_def]

@[simp] lemma vecMul_eq (v : Fin m → ℝ) (A : Matrix (Fin m) (Fin n) ℝ) :
    vecMul v A = v ᵥ* A := by
  funext j
  rw [vecMul, sum_eq, Matrix.vecMul, dotProduct, Fin.sum_univ_def]

@[simp] lemma dot_eq (u v : Fin n → ℝ) : dot u v = u ⬝ᵥ v := by
  rw [dot, sum_eq, dotProduct, Fin.sum_univ_def]

@[simp] lemma npNorm_eq (v : Fin n → ℝ) : npNorm v = √(v ⬝ᵥ v) := by
  rw [npNorm, dot_eq, real_npSqrt]

@[simp] lemma cross_eq (u v : Fin 3 → ℝ) : cross u v = u ⨯₃ v := (cross_apply u v).symm

@[simp] lemma det_eq (A : Matrix (Fin n) (Fin n) ℝ) : det A = A.det := by
  induction n with
  | zero => simp [det]
  | succ n ih =>
    rw [det, sum_eq, det_succ_row_zero, Fin.sum_univ_def]
    simp only [ih, real_lit, Rat.cast_pow, Rat.cast_neg, Rat.cast_one]

@[simp] lemma eyeWith_eq (R : Matrix (Fin n) (Fin n) ℝ) (t : Fin n → ℝ) :
    eyeWith R t = affine R t := by
  simp only [eyeWith, affine, real_lit, Rat.cast_zero, Rat.cast_one]
  rfl

@[simp] lemma transformPt_eq (T : Matrix (Fin (n + 1)) (Fin (n + 1)) ℝ) :
    transformPt T = act T := by
  funext p i
  simp [transformPt, act]

end Real

end NpArray
