import HumanoidNavigation.GoalNav.Geometry
import HumanoidNavigation.MapMaker.AlignPcdFloor
import HumanoidNavigation.Rotation.Quaternion

/-!
# Quaternions and rotations in exact arithmetic

`_rot_to_quat` and the `rotation_to_quaternion` of the floor alignment choose their branches by
different comparisons. Each branch is a row of `Rotation.gram`, and all rows of a rotation are the
same quaternion up to sign.
-/

namespace GoalNav

open PyFloat Ros Except Rotation
open Matrix (specialOrthogonalGroup)

attribute [local instance] PyFloat.real

variable {M : Mat3 ℝ} {p : Fin 4} {q r : Ros.Quaternion ℝ}

/-! ### Unit quaternions -/

lemma quatToMat_eq (hq : UnitLength q) : quatToMat q = ofQuaternion q.x q.y q.z q.w := by
  rw [UnitLength] at hq
  simp [quatToMat, ofQuaternion, hq]

lemma quatToMat_mem (hq : UnitLength q) : quatToMat q ∈ specialOrthogonalGroup (Fin 3) ℝ := by
  rw [quatToMat_eq hq]
  refine ofQuaternion_mem ?_
  rw [UnitLength] at hq
  rw [hq]
  exact one_ne_zero

lemma gram_quatToMat (hq : UnitLength q) (i j : Fin 4) :
    gram (quatToMat q) i j = 4 * (coords q i * coords q j) := by
  rw [quatToMat_eq hq]
  exact gram_ofQuaternion (q := coords q) hq i j

/-! ### The branches of `_rot_to_quat` -/

/-- The number under the root in the branch that `_rot_to_quat` takes. -/
noncomputable def radicand (m : Mat3 ℝ) : ℝ :=
  let tr := m 0 0 + m 1 1 + m 2 2
  if 0 < tr then tr + 1
  else if m 1 1 < m 0 0 ∧ m 2 2 < m 0 0 then 1 + m 0 0 - m 1 1 - m 2 2
  else if m 2 2 < m 1 1 then 1 + m 1 1 - m 0 0 - m 2 2
  else 1 + m 2 2 - m 0 0 - m 1 1

/-- The coordinate that the branch taken computes from this root. -/
noncomputable def branch (m : Mat3 ℝ) : Fin 4 :=
  if 0 < m 0 0 + m 1 1 + m 2 2 then 0
  else if m 1 1 < m 0 0 ∧ m 2 2 < m 0 0 then 1
  else if m 2 2 < m 1 1 then 2
  else 3

lemma radicand_eq_gram (m : Mat3 ℝ) : radicand m = gram m (branch m) (branch m) := by
  simp only [radicand, branch]
  split_ifs
  · simp [gram]
    ring
  · simp [gram]
  · simp [gram]
    ring
  · simp [gram]
    ring

/-- On any matrix the branch taken has a positive number under its root. -/
lemma radicand_pos (m : Mat3 ℝ) : 0 < radicand m := by
  simp only [radicand]
  split_ifs with htrace h₁ h₂
  · linarith
  · linarith
  · rw [not_and_or, not_lt, not_lt] at h₁
    rcases h₁ with h₁ | h₁
    · linarith
    · linarith
  · rw [not_and_or, not_lt, not_lt] at h₁
    rcases h₁ with h₁ | h₁
    · linarith
    · linarith

lemma gram_branch_pos (m : Mat3 ℝ) : 0 < gram m (branch m) (branch m) :=
  (radicand_pos m).trans_eq (radicand_eq_gram m)

lemma normalizeQuat_of_unit {x y z w : ℝ} (h : x * x + y * y + z * z + w * w = 1) :
    normalizeQuat x y z w = .ok ⟨x, y, z, w⟩ := by
  have hroot : sqrt (x * x + y * y + z * z + w * w) = .ok 1 := by
    rw [h]
    simp [sqrt]
  have hdiv (u : ℝ) : div u 1 = .ok u := by simp [div]
  simp [normalizeQuat, hroot, hdiv, bind, Except.bind, pure, Except.pure]

lemma normalizeQuat_row (hM : M ∈ specialOrthogonalGroup (Fin 3) ℝ) (hp : 0 < gram M p p)
    {x y z w : ℝ} (hx : x = quaternionRow M p 1) (hy : y = quaternionRow M p 2)
    (hz : z = quaternionRow M p 3) (hw : w = quaternionRow M p 0) :
    normalizeQuat x y z w = .ok (.ofCoords (quaternionRow M p)) := by
  subst hx hy hz hw
  exact normalizeQuat_of_unit (quaternionRow_unit hM hp)

lemma two_mul_root (x : ℝ) : lit 2 * √x = 2 * √x := by
  rw [real_lit, Rat.cast_ofNat]

lemma div_of_ne {x y : ℝ} (hy : y ≠ 0) : div x y = .ok (x / y) := if_neg hy

lemma half_div_root_pos (hp : 0 < gram M p p) : 0 < ((0.5 : ℚ) : ℝ) / √(gram M p p) :=
  div_pos (by norm_num) (Real.sqrt_pos.mpr hp)

/-- The first branch multiplies by `s = 0.5 / √r` where the others divide. -/
lemma mul_half_div_root {j : Fin 4} {x : ℝ} (hx : x = gram M p j) :
    x * (((0.5 : ℚ) : ℝ) / √(gram M p p)) = quaternionRow M p j := by
  rw [hx, quaternionRow]
  push_cast
  ring

lemma quarter_div_half_div_root (hp : 0 < gram M p p) :
    ((0.25 : ℚ) : ℝ) / (((0.5 : ℚ) : ℝ) / √(gram M p p)) = quaternionRow M p p := by
  rw [← quarter_mul hp rfl, real_lit, div_div_eq_mul_div]
  push_cast
  ring

/-- On a rotation no branch fails, and the result is the row that the branch picks. -/
lemma rotToQuat_eq (hM : M ∈ specialOrthogonalGroup (Fin 3) ℝ) :
    rotToQuat M = .ok (.ofCoords (quaternionRow M (branch M))) := by
  have hpos := gram_branch_pos M
  simp only [rotToQuat, real_lit, real_lt, Rat.cast_zero, decide_eq_true_eq, Bool.and_eq_true]
  by_cases htrace : 0 < M 0 0 + M 1 1 + M 2 2
  · have hbranch : branch M = 0 := if_pos htrace
    rw [hbranch] at hpos ⊢
    rw [if_pos htrace]
    refine bind_eq_ok.mpr ⟨_, sqrt_of_gram (by simp [gram]; ring) hpos, ?_⟩
    refine bind_eq_ok.mpr ⟨_, div_of_ne (Real.sqrt_pos.mpr hpos).ne', ?_⟩
    refine bind_eq_ok.mpr ⟨_, div_of_ne (half_div_root_pos hpos).ne', ?_⟩
    exact normalizeQuat_row hM hpos (mul_half_div_root rfl) (mul_half_div_root rfl)
      (mul_half_div_root rfl) (quarter_div_half_div_root hpos)
  rw [if_neg htrace]
  by_cases h₁ : M 1 1 < M 0 0 ∧ M 2 2 < M 0 0
  · have hbranch : branch M = 1 := (if_neg htrace).trans (if_pos h₁)
    rw [hbranch] at hpos ⊢
    rw [if_pos h₁]
    refine bind_eq_ok.mpr ⟨_, sqrt_of_gram (by simp [gram]) hpos, ?_⟩
    exact normalizeQuat_row hM hpos (quarter_mul hpos (two_mul_root _))
      (npDiv_root rfl (two_mul_root _)) (npDiv_root rfl (two_mul_root _))
      (npDiv_root rfl (two_mul_root _))
  rw [if_neg h₁]
  by_cases h₂ : M 2 2 < M 1 1
  · have hbranch : branch M = 2 := (if_neg htrace).trans ((if_neg h₁).trans (if_pos h₂))
    rw [hbranch] at hpos ⊢
    rw [if_pos h₂]
    refine bind_eq_ok.mpr ⟨_, sqrt_of_gram (by simp [gram]; ring) hpos, ?_⟩
    exact normalizeQuat_row hM hpos (npDiv_root rfl (two_mul_root _))
      (quarter_mul hpos (two_mul_root _)) (npDiv_root rfl (two_mul_root _))
      (npDiv_root rfl (two_mul_root _))
  · have hbranch : branch M = 3 := (if_neg htrace).trans ((if_neg h₁).trans (if_neg h₂))
    rw [hbranch] at hpos ⊢
    rw [if_neg h₂]
    refine bind_eq_ok.mpr ⟨_, sqrt_of_gram (by simp [gram]; ring) hpos, ?_⟩
    exact normalizeQuat_row hM hpos (npDiv_root rfl (two_mul_root _))
      (npDiv_root rfl (two_mul_root _)) (quarter_mul hpos (two_mul_root _))
      (npDiv_root rfl (two_mul_root _))

/-! ### Left inverse -/

/-- Up to sign, every branch gives back the quaternion of the matrix. -/
lemma rotToQuat_quatToMat (hq : UnitLength q) :
    rotToQuat (quatToMat q) = .ok q ∨ rotToQuat (quatToMat q) = .ok (opposite q) := by
  have hM := quatToMat_mem hq
  have hrow (i j : Fin 4) : quaternionRow (quatToMat q) (branch (quatToMat q)) i *
      quaternionRow (quatToMat q) (branch (quatToMat q)) j = coords q i * coords q j := by
    have h := quaternionRow_mul_quaternionRow hM (gram_branch_pos _) i j
    rw [gram_quatToMat hq] at h
    linarith
  rw [rotToQuat_eq hM]
  rcases ofCoords_eq_or_eq_opposite hrow with h | h
  · left
    rw [h, ofCoords_coords]
  · right
    rw [h, ofCoords_coords]

/-- The matrix of the quaternion is the rotation. -/
lemma exists_rotToQuat (hM : M ∈ specialOrthogonalGroup (Fin 3) ℝ) :
    ∃ q, rotToQuat M = .ok q ∧ UnitLength q ∧ quatToMat q = M := by
  have hpos := gram_branch_pos M
  refine ⟨_, rotToQuat_eq hM, unitLength_row hM hpos, ?_⟩
  rw [quatToMat_eq (unitLength_row hM hpos)]
  exact ofQuaternion_of_gram (q := quaternionRow M (branch M))
    (quaternionRow_mul_quaternionRow hM hpos)

/-! ### The change of frame -/

/-- The matrix of a pose. -/
noncomputable def poseToMat (pose : PoseStamped ℝ) : Mat4 ℝ :=
  transformToMat ⟨pose.position, pose.orientation⟩

/-- The product of the rotation parts is that of the matrices. -/
lemma mulRotation_transformToMat (t : Transform ℝ) (R : Mat3 ℝ) :
    mulRotation (transformToMat t) R = quatToMat t.rotation * R := by
  ext i j
  rw [Matrix.mul_apply, Fin.sum_univ_three]
  fin_cases i <;> simp [mulRotation, transformToMat]

/-- The matrix of a pose whose parts are the products. -/
lemma transformToMat_mul {t : Transform ℝ} {pose out : PoseStamped ℝ}
    (hposition : out.position = applyPoint (transformToMat t) pose.position)
    (horientation : quatToMat out.orientation =
      quatToMat t.rotation * quatToMat pose.orientation) :
    poseToMat out = transformToMat t * poseToMat pose := by
  have hR (i j : Fin 3) := congrFun (congrFun horientation i) j
  simp only [Matrix.mul_apply, Fin.sum_univ_three] at hR
  ext i j
  rw [Matrix.mul_apply, Fin.sum_univ_four]
  fin_cases i <;> fin_cases j <;>
    simp [poseToMat, transformToMat, hposition, hR, applyPoint, applyRow]

lemma goalInFrame_of_transform {tf : TfBuffer ℝ} {pose : PoseStamped ℝ} {targetFrame : String}
    {t : Transform ℝ} (hframe : pose.frameId ≠ targetFrame)
    (ht : tf targetFrame pose.frameId = some t) (hunit : UnitLength t.rotation)
    (hpose : UnitLength pose.orientation) :
    ∃ out, goalInFrame tf pose targetFrame = .ok (some out) ∧ out.frameId = targetFrame ∧
      UnitLength out.orientation ∧ poseToMat out = transformToMat t * poseToMat pose := by
  obtain ⟨q, hq, hqunit, hqmat⟩ :=
    exists_rotToQuat (mul_mem (quatToMat_mem hunit) (quatToMat_mem hpose))
  rw [← mulRotation_transformToMat] at hq
  refine ⟨{ pose with
    frameId := targetFrame
    position := applyPoint (transformToMat t) pose.position
    orientation := q }, ?_, rfl, hqunit, transformToMat_mul rfl hqmat⟩
  rw [goalInFrame, if_neg hframe, ht]
  exact bind_eq_ok.mpr ⟨q, hq, rfl⟩

/-- In exact arithmetic `_rot_to_quat` is a left inverse of `_quat_to_mat` up to sign. The number
under its root, by which and by no other number but the norm it divides, is positive. On every
rotation it agrees with `rotation_to_quaternion` up to sign. And the pose that `_goal_in_frame`
returns has the matrix of the transform times that of the goal. -/
theorem quaternion_conversion :
    (∀ q : Ros.Quaternion ℝ, UnitLength q → 0 < radicand (quatToMat q) ∧
      (rotToQuat (quatToMat q) = .ok q ∨ rotToQuat (quatToMat q) = .ok (opposite q))) ∧
    (∀ M ∈ specialOrthogonalGroup (Fin 3) ℝ, 0 < radicand M ∧
      ∃ q q', rotToQuat M = .ok q ∧ AlignPcdFloor.rotationToQuaternion M = .ok q' ∧
        (q' = q ∨ q' = opposite q)) ∧
    ∀ (tf : TfBuffer ℝ) (pose : PoseStamped ℝ) (targetFrame : String) (t : Transform ℝ),
      pose.frameId ≠ targetFrame → tf targetFrame pose.frameId = some t →
      UnitLength t.rotation → UnitLength pose.orientation →
      ∃ out, goalInFrame tf pose targetFrame = .ok (some out) ∧ out.frameId = targetFrame ∧
        poseToMat out = transformToMat t * poseToMat pose := by
  refine ⟨fun q hq => ⟨radicand_pos _, rotToQuat_quatToMat hq⟩, fun M hM => ⟨radicand_pos _, ?_⟩,
    fun tf pose targetFrame t hframe ht hunit hpose => ?_⟩
  · exact ⟨_, _, rotToQuat_eq hM, AlignPcdFloor.rotationToQuaternion_eq hM,
      row_eq_or_eq_opposite hM (AlignPcdFloor.gram_branch_pos M) (gram_branch_pos M)⟩
  · obtain ⟨out, hout, hto, -, hmat⟩ := goalInFrame_of_transform hframe ht hunit hpose
    exact ⟨out, hout, hto, hmat⟩

/-- The quaternion of a half turn about the vertical axis. -/
noncomputable def halfTurn : Ros.Quaternion ℝ := ⟨0, 0, 1, 0⟩

lemma unitLength_halfTurn : UnitLength halfTurn := by
  norm_num [UnitLength, halfTurn]

/-- A half turn comes back, and a goal is turned by it. -/
theorem quaternion_conversion_halfTurn :
    (rotToQuat (quatToMat halfTurn) = .ok halfTurn ∨
      rotToQuat (quatToMat halfTurn) = .ok (opposite halfTurn)) ∧
    (∃ q q', rotToQuat (quatToMat halfTurn) = .ok q ∧
      AlignPcdFloor.rotationToQuaternion (quatToMat halfTurn) = .ok q' ∧
        (q' = q ∨ q' = opposite q)) ∧
    ∃ out, goalInFrame (fun _ _ => some ⟨⟨1, 0, 0⟩, halfTurn⟩)
        ⟨"body_level", ⟨0, 0⟩, ⟨2, 0, 0⟩, halfTurn⟩ "map" = .ok (some out) ∧
      out.frameId = "map" ∧
      poseToMat out = transformToMat ⟨⟨1, 0, 0⟩, halfTurn⟩ *
        poseToMat ⟨"body_level", ⟨0, 0⟩, ⟨2, 0, 0⟩, halfTurn⟩ :=
  ⟨(quaternion_conversion.1 halfTurn unitLength_halfTurn).2,
    (quaternion_conversion.2.1 _ (quatToMat_mem unitLength_halfTurn)).2,
    quaternion_conversion.2.2 _ _ _ _ (by decide) rfl unitLength_halfTurn unitLength_halfTurn⟩

end GoalNav
