import HumanoidNavigation.Rotation.Quaternion

/-!
# The quaternion of the floor alignment

`rotation_to_quaternion` of `align_pcd_floor.py`, which turns the rotation that levels the floor
into the quaternion that is printed. On rotations it is the row of `Rotation.gram` that its branch
picks, scaled to length one (`rotationToQuaternion_eq`).
-/

namespace AlignPcdFloor

open PyFloat Ros Except

section

variable {F : Type} [PyFloat F]

/-- `np.argmax` of three numbers that are not NaN: the first of the largest. -/
def argmax (a b c : F) : Fin 3 :=
  if lt a b then
    if lt b c then 2 else 1
  else if lt a c then 2
  else 0

/-- The last lines of `rotation_to_quaternion`. The norm is that of an array, so a division by
zero does not raise. -/
def unitQuaternion (qx qy qz qw : F) : Quaternion F :=
  let norm := npSqrt (qx * qx + qy * qy + qz * qz + qw * qw)
  ⟨npDiv qx norm, npDiv qy norm, npDiv qz norm, npDiv qw norm⟩

/-- `rotation_to_quaternion` -/
def rotationToQuaternion (rotation : Mat3 F) : Except PyError (Quaternion F) := do
  let trace := rotation 0 0 + rotation 1 1 + rotation 2 2
  if lt (lit 0) trace then
    let s := (← sqrt (trace + lit 1)) * lit 2
    let qw := lit 0.25 * s
    let qx := npDiv (rotation 2 1 - rotation 1 2) s
    let qy := npDiv (rotation 0 2 - rotation 2 0) s
    let qz := npDiv (rotation 1 0 - rotation 0 1) s
    return unitQuaternion qx qy qz qw
  else
    let index := argmax (rotation 0 0) (rotation 1 1) (rotation 2 2)
    if index = 0 then
      let s := (← sqrt (lit 1 + rotation 0 0 - rotation 1 1 - rotation 2 2)) * lit 2
      let qw := npDiv (rotation 2 1 - rotation 1 2) s
      let qx := lit 0.25 * s
      let qy := npDiv (rotation 0 1 + rotation 1 0) s
      let qz := npDiv (rotation 0 2 + rotation 2 0) s
      return unitQuaternion qx qy qz qw
    else if index = 1 then
      let s := (← sqrt (lit 1 + rotation 1 1 - rotation 0 0 - rotation 2 2)) * lit 2
      let qw := npDiv (rotation 0 2 - rotation 2 0) s
      let qx := npDiv (rotation 0 1 + rotation 1 0) s
      let qy := lit 0.25 * s
      let qz := npDiv (rotation 1 2 + rotation 2 1) s
      return unitQuaternion qx qy qz qw
    else
      let s := (← sqrt (lit 1 + rotation 2 2 - rotation 0 0 - rotation 1 1)) * lit 2
      let qw := npDiv (rotation 1 0 - rotation 0 1) s
      let qx := npDiv (rotation 0 2 + rotation 2 0) s
      let qy := npDiv (rotation 1 2 + rotation 2 1) s
      let qz := lit 0.25 * s
      return unitQuaternion qx qy qz qw

end

/-! ### Rotations -/

section Real

open Rotation
open Matrix (specialOrthogonalGroup)

attribute [local instance] PyFloat.real

lemma unitQuaternion_of_unit {x y z w : ℝ} (h : x * x + y * y + z * z + w * w = 1) :
    unitQuaternion x y z w = ⟨x, y, z, w⟩ := by
  simp [unitQuaternion, h, npDiv]

variable {M : Mat3 ℝ}

/-- The coordinate that the branch taken computes from its root. -/
noncomputable def branch (M : Mat3 ℝ) : Fin 4 :=
  if 0 < M 0 0 + M 1 1 + M 2 2 then 0 else (argmax (M 0 0) (M 1 1) (M 2 2)).succ

lemma gram_branch_pos (M : Mat3 ℝ) : 0 < gram M (branch M) (branch M) := by
  simp only [branch, argmax, real_lt, decide_eq_true_eq]
  split_ifs with htrace h₁ h₂ h₃
  · simp [gram]
    linarith
  · simp [gram]
    linarith
  · simp [gram]
    linarith
  · simp [gram]
    linarith
  · simp [gram]
    linarith

lemma root_mul_two (x : ℝ) : √x * lit 2 = 2 * √x := by
  rw [real_lit, Rat.cast_ofNat, mul_comm]

lemma unitQuaternion_row (hM : M ∈ specialOrthogonalGroup (Fin 3) ℝ) {p : Fin 4}
    (hp : 0 < gram M p p) {x y z w : ℝ} (hx : x = quaternionRow M p 1)
    (hy : y = quaternionRow M p 2) (hz : z = quaternionRow M p 3) (hw : w = quaternionRow M p 0) :
    unitQuaternion x y z w = .ofCoords (quaternionRow M p) := by
  subst hx hy hz hw
  exact unitQuaternion_of_unit (quaternionRow_unit hM hp)

/-- On a rotation no branch fails, and the result is the row that the branch picks. -/
lemma rotationToQuaternion_eq (hM : M ∈ specialOrthogonalGroup (Fin 3) ℝ) :
    rotationToQuaternion M = .ok (.ofCoords (quaternionRow M (branch M))) := by
  have hpos := gram_branch_pos M
  have hlt : lt (lit 0) (M 0 0 + M 1 1 + M 2 2) = decide (0 < M 0 0 + M 1 1 + M 2 2) := by simp
  simp only [rotationToQuaternion, hlt, decide_eq_true_eq]
  by_cases htrace : 0 < M 0 0 + M 1 1 + M 2 2
  · have hbranch : branch M = 0 := if_pos htrace
    rw [hbranch] at hpos ⊢
    rw [if_pos htrace]
    refine bind_eq_ok.mpr ⟨_, sqrt_of_gram (by simp [gram]; ring) hpos, ?_⟩
    exact congrArg _ (unitQuaternion_row hM hpos (npDiv_root rfl (root_mul_two _))
      (npDiv_root rfl (root_mul_two _)) (npDiv_root rfl (root_mul_two _))
      (quarter_mul hpos (root_mul_two _)))
  · have hbranch : branch M = (argmax (M 0 0) (M 1 1) (M 2 2)).succ := if_neg htrace
    rw [hbranch] at hpos ⊢
    rw [if_neg htrace]
    generalize argmax (M 0 0) (M 1 1) (M 2 2) = index at hpos ⊢
    obtain rfl | rfl | rfl : index = 0 ∨ index = 1 ∨ index = 2 := by fin_cases index <;> simp
    · rw [if_pos rfl]
      refine bind_eq_ok.mpr ⟨_, sqrt_of_gram (by simp [gram]) hpos, ?_⟩
      exact congrArg _ (unitQuaternion_row hM hpos (quarter_mul hpos (root_mul_two _))
        (npDiv_root rfl (root_mul_two _)) (npDiv_root rfl (root_mul_two _))
        (npDiv_root rfl (root_mul_two _)))
    · rw [if_neg (by decide), if_pos rfl]
      refine bind_eq_ok.mpr ⟨_, sqrt_of_gram (by simp [gram]; ring) hpos, ?_⟩
      exact congrArg _ (unitQuaternion_row hM hpos (npDiv_root rfl (root_mul_two _))
        (quarter_mul hpos (root_mul_two _)) (npDiv_root rfl (root_mul_two _))
        (npDiv_root rfl (root_mul_two _)))
    · rw [if_neg (by decide), if_neg (by decide)]
      refine bind_eq_ok.mpr ⟨_, sqrt_of_gram (by simp [gram]; ring) hpos, ?_⟩
      exact congrArg _ (unitQuaternion_row hM hpos (npDiv_root rfl (root_mul_two _))
        (npDiv_root rfl (root_mul_two _)) (quarter_mul hpos (root_mul_two _))
        (npDiv_root rfl (root_mul_two _)))

end Real

end AlignPcdFloor
