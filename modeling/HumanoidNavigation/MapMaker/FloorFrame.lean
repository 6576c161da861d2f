import HumanoidNavigation.MapMaker.AlignPcdFloor
import HumanoidNavigation.Numeric.Array
import HumanoidNavigation.Rotation.Align

/-!
# The frame of the floor

`main` of `align_pcd_floor.py` turns the floor plane `z = a*x + b*y + c` into a rotation and a
translation. In exact arithmetic they take the plane to height zero and what is below it to its
distance from the plane, for the normal is chosen against the raw z axis.
-/

namespace AlignPcdFloor

open PyFloat Ros NpArray

section

variable {F : Type} [PyFloat F]

/-- `rotation` and `translation` -/
structure Frame (F : Type) where
  rotation : Mat3 F
  translation : Fin 3 → F

/-- `p @ rotation.T` -/
def Frame.rotate (fr : Frame F) (p : Fin 3 → F) : Fin 3 → F := vecMul p fr.rotation.transpose

/-- `p @ rotation.T + translation` -/
def Frame.move (fr : Frame F) (p : Fin 3 → F) : Fin 3 → F :=
  fun i => fr.rotate p i + fr.translation i

/-- `scale` -/
def scale (a b : F) : Except PyError F := sqrt (lit 1 + a * a + b * b)

/-- `up_raw` -/
def upRaw (a b scale : F) : Fin 3 → F := fun i => npDiv (![a, b, lit (-1)] i) scale

/-- `raw_x` -/
def rawX : Fin 3 → F := ![lit 1, lit 0, lit 0]

/-- `aligned_x_raw`, before it is divided by its norm -/
def projectedX (up : Fin 3 → F) : Fin 3 → F := fun i => rawX i - up i * dot rawX up

/-- `aligned_x_raw` -/
def alignedX (up : Fin 3 → F) : Fin 3 → F :=
  fun i => npDiv (projectedX up i) (npNorm (projectedX up))

/-- What `main` computes from the plane. -/
def frame (a b c : F) : Except PyError (Frame F) := do
  let s ← scale a b
  let up := upRaw a b s
  return ⟨Matrix.of ![alignedX up, cross up (alignedX up), up], ![lit 0, lit 0, ← div c s]⟩

/-- What `main` prints, but for the number of the points. -/
structure Report (F : Type) extends Frame F where
  quaternion : Quaternion F
  mappingOriginHeight : F
  floorCheck : F

def report (a b c : F) : Except PyError (Report F) := do
  let fr ← frame a b c
  let quaternion ← rotationToQuaternion fr.rotation
  return {
    toFrame := fr
    quaternion
    mappingOriginHeight := fr.translation 2
    floorCheck := dot (fr.rotation 2) ![lit 0, lit 0, c] + fr.translation 2 }

end

/-! ### Exact arithmetic -/

section Real

open Rotation
open Matrix (specialOrthogonalGroup of mulVec_transpose vec3_dotProduct)
open scoped Matrix

attribute [local instance] PyFloat.real

variable {a b c s : ℝ} {p : Fin 3 → ℝ}

@[simp] lemma Frame.rotate_eq (fr : Frame ℝ) (p : Fin 3 → ℝ) : fr.rotate p = fr.rotation *ᵥ p := by
  rw [Frame.rotate, vecMul_eq, Matrix.vecMul_transpose]

@[simp] lemma Frame.move_eq (fr : Frame ℝ) (p : Fin 3 → ℝ) :
    fr.move p = fr.rotation *ᵥ p + fr.translation := by
  funext i
  rw [Frame.move, Frame.rotate_eq, Pi.add_apply]

/-- The length of the normal `(a, b, -1)` of the plane. -/
noncomputable def normalLength (a b : ℝ) : ℝ := √(1 + a * a + b * b)

lemma normal_pos (a b : ℝ) : 0 < 1 + a * a + b * b := by
  nlinarith [mul_self_nonneg a, mul_self_nonneg b]

lemma normalLength_pos (a b : ℝ) : 0 < normalLength a b := Real.sqrt_pos.mpr (normal_pos a b)

lemma normalLength_mul_self (a b : ℝ) : normalLength a b * normalLength a b = 1 + a * a + b * b :=
  Real.mul_self_sqrt (normal_pos a b).le

lemma scale_eq (a b : ℝ) : scale a b = .ok (normalLength a b) := by
  simp only [scale, real_lit, Rat.cast_one, sqrt, if_neg (normal_pos a b).not_gt]
  rfl

/-- The normal of the plane, which points against the raw z axis. -/
noncomputable def up (a b : ℝ) : Fin 3 → ℝ := upRaw a b (normalLength a b)

lemma up_eq (a b : ℝ) :
    up a b = ![a / normalLength a b, b / normalLength a b, -1 / normalLength a b] := by
  funext i
  fin_cases i <;> simp [up, upRaw, npDiv]

lemma up_dotProduct (a b : ℝ) (p : Fin 3 → ℝ) :
    up a b ⬝ᵥ p = (a * p 0 + b * p 1 - p 2) / normalLength a b := by
  simp only [up_eq, vec3_dotProduct, Matrix.cons_val]
  ring

lemma up_unit (a b : ℝ) : up a b ⬝ᵥ up a b = 1 := by
  have hne := (normalLength_pos a b).ne'
  rw [up_dotProduct]
  simp only [up_eq, Matrix.cons_val]
  field_simp
  linear_combination -normalLength_mul_self a b

lemma projectedX_eq (u : Fin 3 → ℝ) : projectedX u = rejection u ![1, 0, 0] := by
  have hraw : (rawX : Fin 3 → ℝ) = ![1, 0, 0] := by
    simp [rawX]
  funext i
  simp only [projectedX, hraw, dot_eq, rejection, Pi.sub_apply, Pi.smul_apply, smul_eq_mul,
    dotProduct_comm u]
  ring

/-- The raw x axis is not along the normal, for the normal has a part along the raw z axis. -/
lemma projectedX_ne_zero (a b : ℝ) : projectedX (up a b) ≠ 0 := by
  intro h
  have hne := (normalLength_pos a b).ne'
  rw [projectedX_eq, rejection, sub_eq_zero] at h
  have hz : (up a b ⬝ᵥ ![1, 0, 0]) * up a b 2 = 0 := (congrFun h 2).symm
  have hup : up a b 2 ≠ 0 := by
    rw [up_eq]
    exact div_ne_zero (by norm_num) hne
  have hx : (1 : ℝ) = (up a b ⬝ᵥ ![1, 0, 0]) * up a b 0 := congrFun h 0
  rw [(mul_eq_zero.mp hz).resolve_right hup, zero_mul] at hx
  exact one_ne_zero hx

lemma alignedX_eq (u : Fin 3 → ℝ) : alignedX u = direction (projectedX u) := by
  funext i
  rw [alignedX, npNorm_eq, direction, Pi.smul_apply, smul_eq_mul, length, inv_mul_eq_div]
  rfl

lemma alignedX_unit (a b : ℝ) : alignedX (up a b) ⬝ᵥ alignedX (up a b) = 1 := by
  rw [alignedX_eq, direction_unit (projectedX_ne_zero a b)]

lemma up_dotProduct_alignedX (a b : ℝ) : up a b ⬝ᵥ alignedX (up a b) = 0 := by
  rw [alignedX_eq, direction, dotProduct_smul, projectedX_eq, dotProduct_rejection (up_unit a b),
    smul_zero]

/-- The frame in exact arithmetic. -/
noncomputable def frameOf (a b c : ℝ) : Frame ℝ where
  rotation := of ![alignedX (up a b), up a b ⨯₃ alignedX (up a b), up a b]
  translation := ![0, 0, c / normalLength a b]

lemma frame_eq (a b c : ℝ) : frame a b c = .ok (frameOf a b c) := by
  have hdiv : div c (normalLength a b) = .ok (c / normalLength a b) :=
    if_neg (normalLength_pos a b).ne'
  simp only [frame, scale_eq, cross_eq, real_lit, Rat.cast_zero, bind, Except.bind, hdiv]
  rfl

lemma frameOf_mem (a b c : ℝ) : (frameOf a b c).rotation ∈ specialOrthogonalGroup (Fin 3) ℝ :=
  frame_mem (up_unit a b) (alignedX_unit a b) (up_dotProduct_alignedX a b)

/-! ### Heights -/

lemma frameOf_height (a b c : ℝ) (p : Fin 3 → ℝ) :
    (frameOf a b c).move p 2 = up a b ⬝ᵥ p + c / normalLength a b := by
  rw [Frame.move_eq]
  rfl

lemma height_eq (a b c : ℝ) (p : Fin 3 → ℝ) : up a b ⬝ᵥ p + c / normalLength a b =
    (a * p 0 + b * p 1 + c - p 2) / normalLength a b := by
  rw [up_dotProduct]
  ring

/-- The points on the plane. -/
def plane (a b c : ℝ) : Set (Fin 3 → ℝ) := {p | p 2 = a * p 0 + b * p 1 + c}

lemma mem_plane_iff : p ∈ plane a b c ↔ up a b ⬝ᵥ p + c / normalLength a b = 0 := by
  rw [height_eq, div_eq_zero_iff, or_iff_left (normalLength_pos a b).ne', sub_eq_zero, eq_comm]
  rfl

lemma frameOf_below (hp : p 2 < a * p 0 + b * p 1 + c) : 0 < (frameOf a b c).move p 2 ∧
    IsLeast ((fun q => length (p - q)) '' plane a b c) ((frameOf a b c).move p 2) := by
  have hpos : 0 < up a b ⬝ᵥ p + c / normalLength a b := by
    rw [height_eq]
    exact div_pos (sub_pos.mpr hp) (normalLength_pos a b)
  have hplane : plane a b c = {q | up a b ⬝ᵥ q + c / normalLength a b = 0} :=
    Set.ext fun q => mem_plane_iff
  rw [frameOf_height, hplane]
  exact ⟨hpos, isLeast_height (up_unit a b) hpos.le⟩

/-! ### The raw x axis -/

/-- The part of the raw x axis along its projection is the length of the projection. -/
lemma alignedX_dotProduct (a b : ℝ) :
    alignedX (up a b) ⬝ᵥ ![1, 0, 0] = length (projectedX (up a b)) := by
  have horth := up_dotProduct_alignedX a b
  have hself : alignedX (up a b) ⬝ᵥ projectedX (up a b) = length (projectedX (up a b)) := by
    have hne := (length_pos (projectedX_ne_zero a b)).ne'
    rw [alignedX_eq, direction, smul_dotProduct, ← length_mul_length, smul_eq_mul,
      inv_mul_cancel_left₀ hne]
  rw [← hself, projectedX_eq, rejection, dotProduct_sub, dotProduct_smul,
    dotProduct_comm _ (up a b), horth, smul_zero, sub_zero]

lemma frameOf_forward {t : ℝ} (ht : 0 < t) (a b c : ℝ) :
    (frameOf a b c).move ![t, 0, 0] 1 = 0 ∧ 0 < (frameOf a b c).move ![t, 0, 0] 0 := by
  have hx : ![t, 0, 0] = t • ![(1 : ℝ), 0, 0] := by simp
  -- the axis is in the plane of the first and the last row, and the second one is normal to it
  have hside : (up a b ⨯₃ alignedX (up a b)) ⬝ᵥ ![1, 0, 0] = 0 := by
    have hspan : ![(1 : ℝ), 0, 0] =
        length (projectedX (up a b)) • alignedX (up a b) + (up a b ⬝ᵥ ![1, 0, 0]) • up a b := by
      have hne := (length_pos (projectedX_ne_zero a b)).ne'
      rw [alignedX_eq, direction, smul_inv_smul₀ hne, projectedX_eq, rejection, sub_add_cancel]
    rw [dotProduct_comm, hspan, add_dotProduct, smul_dotProduct, smul_dotProduct, dot_cross_self,
      dot_self_cross, smul_zero, smul_zero, add_zero]
  rw [Frame.move_eq, hx, Matrix.mulVec_smul]
  constructor
  · show t * ((up a b ⨯₃ alignedX (up a b)) ⬝ᵥ ![1, 0, 0]) + 0 = 0
    rw [hside, mul_zero, add_zero]
  · show 0 < t * (alignedX (up a b) ⬝ᵥ ![1, 0, 0]) + 0
    rw [alignedX_dotProduct, add_zero]
    exact mul_pos ht (length_pos (projectedX_ne_zero a b))

/-! ### The report -/

/-- What the frame does to the plane and to the raw axes, and that the quaternion is that of the
rotation. -/
structure Levels (a b c : ℝ) (r : Report ℝ) : Prop where
  rotation : r.rotation ∈ specialOrthogonalGroup (Fin 3) ℝ
  floor : ∀ p ∈ plane a b c, r.move p 2 = 0
  below : ∀ p, p 2 < a * p 0 + b * p 1 + c → 0 < r.move p 2 ∧
    IsLeast ((fun q => length (p - q)) '' plane a b c) (r.move p 2)
  forward : ∀ t > 0, r.move ![t, 0, 0] 1 = 0 ∧ 0 < r.move ![t, 0, 0] 0
  quaternion : UnitLength r.quaternion ∧
    ofQuaternion r.quaternion.x r.quaternion.y r.quaternion.z r.quaternion.w = r.rotation
  floorCheck : r.floorCheck = 0

/-- The report in exact arithmetic. -/
noncomputable def reportOf (a b c : ℝ) : Report ℝ where
  toFrame := frameOf a b c
  quaternion := .ofCoords (quaternionRow (frameOf a b c).rotation (branch (frameOf a b c).rotation))
  mappingOriginHeight := c / normalLength a b
  floorCheck := up a b ⬝ᵥ ![0, 0, c] + c / normalLength a b

lemma report_eq (a b c : ℝ) : report a b c = .ok (reportOf a b c) := by
  simp only [report, frame_eq, bind, Except.bind, rotationToQuaternion_eq (frameOf_mem a b c),
    dot_eq, real_lit, Rat.cast_zero]
  rfl

/-- The quaternion of a rotation has its matrix. -/
lemma rotationToQuaternion_spec {M : Mat3 ℝ} (hM : M ∈ specialOrthogonalGroup (Fin 3) ℝ)
    {q : Ros.Quaternion ℝ} (hq : rotationToQuaternion M = .ok q) :
    UnitLength q ∧ ofQuaternion q.x q.y q.z q.w = M := by
  rw [rotationToQuaternion_eq hM] at hq
  obtain rfl := Except.ok.inj hq
  have hmatrix := ofQuaternion_of_gram (q := quaternionRow M (branch M))
    (quaternionRow_mul_quaternionRow hM (gram_branch_pos M))
  exact ⟨unitLength_row hM (gram_branch_pos M), hmatrix⟩

lemma levels (a b c : ℝ) : Levels a b c (reportOf a b c) where
  rotation := frameOf_mem a b c
  floor p hp := (frameOf_height a b c p).trans (mem_plane_iff.mp hp)
  below p hp := frameOf_below hp
  forward t ht := frameOf_forward ht a b c
  quaternion := rotationToQuaternion_spec (frameOf_mem a b c)
    (rotationToQuaternion_eq (frameOf_mem a b c))
  floorCheck := mem_plane_iff.mp (by simp [plane])

/-- For every plane the lengths that `main` divides by are positive, and the frame levels the
plane with what is below it up. -/
theorem floor_frame (a b c : ℝ) : ∃ s r, scale a b = .ok s ∧ 0 < s ∧
    0 < npNorm (projectedX (upRaw a b s)) ∧ report a b c = .ok r ∧ Levels a b c r := by
  refine ⟨_, _, scale_eq a b, normalLength_pos a b, ?_, report_eq a b c, levels a b c⟩
  rw [npNorm_eq]
  exact length_pos (projectedX_ne_zero a b)

end Real

end AlignPcdFloor
