import HumanoidNavigation.Numeric.PyReal
import HumanoidNavigation.Ros.Messages
import HumanoidNavigation.Rotation.Basic

/-!
# Quaternions of rotations in exact arithmetic

Code that turns a rotation matrix into a quaternion takes the root of a diagonal entry of
`Rotation.gram` and divides the other entries of this row by it. The lemmas say what such a branch
computes, and that the rows of a rotation are one quaternion up to sign.
-/

namespace Rotation

open PyFloat Ros
open Matrix (specialOrthogonalGroup)

attribute [local instance] PyFloat.real

variable {M : Mat3 ℝ} {p p' j : Fin 4} {s x : ℝ} {q : Ros.Quaternion ℝ}

/-! ### Unit quaternions -/

def UnitLength (q : Ros.Quaternion ℝ) : Prop := q.x * q.x + q.y * q.y + q.z * q.z + q.w * q.w = 1

/-- `-q`, which has the matrix of `q` -/
noncomputable def opposite (q : Ros.Quaternion ℝ) : Ros.Quaternion ℝ := ⟨-q.x, -q.y, -q.z, -q.w⟩

/-- The coordinates in the order `w, x, y, z`. -/
def coords (q : Ros.Quaternion ℝ) : Fin 4 → ℝ := ![q.w, q.x, q.y, q.z]

lemma ofCoords_coords (q : Ros.Quaternion ℝ) : Ros.Quaternion.ofCoords (coords q) = q := rfl

/-- Coordinates with the same products are those of one quaternion, up to sign. -/
lemma ofCoords_eq_or_eq_opposite {v w : Fin 4 → ℝ} (h : ∀ i j, v i * v j = w i * w j) :
    Ros.Quaternion.ofCoords v = .ofCoords w ∨
      Ros.Quaternion.ofCoords v = opposite (.ofCoords w) := by
  rcases eq_or_eq_neg_of_mul_eq h with rfl | rfl
  · exact Or.inl rfl
  · exact Or.inr rfl

/-- The product of two quaternions: the rotation of the second one, then that of the first one. -/
noncomputable def compose (p q : Ros.Quaternion ℝ) : Ros.Quaternion ℝ where
  x := p.w * q.x + p.x * q.w + p.y * q.z - p.z * q.y
  y := p.w * q.y - p.x * q.z + p.y * q.w + p.z * q.x
  z := p.w * q.z + p.x * q.y - p.y * q.x + p.z * q.w
  w := p.w * q.w - p.x * q.x - p.y * q.y - p.z * q.z

lemma compose_unitLength {p q : Ros.Quaternion ℝ} (hp : UnitLength p) (hq : UnitLength q) :
    UnitLength (compose p q) := by
  simp only [UnitLength, compose] at *
  linear_combination (q.x * q.x + q.y * q.y + q.z * q.z + q.w * q.w) * hp + hq

lemma ofQuaternion_compose {p q : Ros.Quaternion ℝ} (hp : UnitLength p) (hq : UnitLength q) :
    ofQuaternion (compose p q).x (compose p q).y (compose p q).z (compose p q).w =
      ofQuaternion p.x p.y p.z p.w * ofQuaternion q.x q.y q.z q.w := by
  have hpq := compose_unitLength hp hq
  simp only [UnitLength] at hp hq hpq
  simp only [ofQuaternion, hp, hq, hpq, div_one]
  ext i j
  fin_cases i <;> fin_cases j <;> simp [compose, Matrix.mul_apply, Fin.sum_univ_three] <;> grind

/-! ### Rows -/

lemma unitLength_row (hM : M ∈ specialOrthogonalGroup (Fin 3) ℝ) (hp : 0 < gram M p p) :
    UnitLength (.ofCoords (quaternionRow M p)) :=
  quaternionRow_unit hM hp

lemma row_eq_or_eq_opposite (hM : M ∈ specialOrthogonalGroup (Fin 3) ℝ) (hp : 0 < gram M p p)
    (hp' : 0 < gram M p' p') :
    Ros.Quaternion.ofCoords (quaternionRow M p) = .ofCoords (quaternionRow M p') ∨
      Ros.Quaternion.ofCoords (quaternionRow M p) = opposite (.ofCoords (quaternionRow M p')) := by
  refine ofCoords_eq_or_eq_opposite fun i j => ?_
  have h := quaternionRow_mul_quaternionRow hM hp i j
  have h' := quaternionRow_mul_quaternionRow hM hp' i j
  linarith

/-- The root of a branch is taken of a positive number. -/
lemma sqrt_of_gram (hx : x = gram M p p) (hp : 0 < gram M p p) :
    sqrt x = .ok √(gram M p p) := by
  subst hx
  exact if_neg hp.not_gt

/-- With `s` twice the root, `0.25 * s` is the coordinate of the branch. -/
lemma quarter_mul (hp : 0 < gram M p p) (hs : s = 2 * √(gram M p p)) :
    lit 0.25 * s = quaternionRow M p p := by
  have hroot : √(gram M p p) ≠ 0 := (Real.sqrt_pos.mpr hp).ne'
  have hsq : √(gram M p p) * √(gram M p p) = gram M p p := Real.mul_self_sqrt hp.le
  rw [real_lit, quaternionRow, hs, eq_div_iff (mul_ne_zero two_ne_zero hroot)]
  push_cast
  linear_combination hsq

/-- The divisions by `s` give the other coordinates. -/
lemma npDiv_root (hx : x = gram M p j) (hs : s = 2 * √(gram M p p)) :
    npDiv x s = quaternionRow M p j := by
  rw [hx, hs, quaternionRow]
  rfl

end Rotation
