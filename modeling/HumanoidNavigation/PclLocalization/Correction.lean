import HumanoidNavigation.Numeric.CppReal
import HumanoidNavigation.PclLocalization.System
import HumanoidNavigation.Rotation.Quaternion
import HumanoidNavigation.Rotation.RigidMotion
import Mathlib.Analysis.SpecialFunctions.Trigonometric.Inverse

/-!
# The correction filter

In exact arithmetic on rigid transforms, a pose that `filterAcceptedMapPoseWithAbsoluteOdom` returns
is the stored correction applied to the odometry pose, and measurements that agree on a correction
draw the stored one to it by the gain.
-/

namespace PclLocalization

open Rotation Transition
open Matrix (specialOrthogonalGroup)

attribute [local instance] CppMath.real Rotation.atLeastTwo_two

/-! ### Eigen in exact arithmetic -/

/-- `toRotationMatrix` -/
noncomputable def toRotationMatrix (q : Ros.Quaternion ℝ) : Ros.Mat3 ℝ :=
  !![1 - 2 * (q.y * q.y + q.z * q.z), 2 * (q.x * q.y - q.z * q.w), 2 * (q.x * q.z + q.y * q.w);
    2 * (q.x * q.y + q.z * q.w), 1 - 2 * (q.x * q.x + q.z * q.z), 2 * (q.y * q.z - q.x * q.w);
    2 * (q.x * q.z - q.y * q.w), 2 * (q.y * q.z + q.x * q.w), 1 - 2 * (q.x * q.x + q.y * q.y)]

lemma toRotationMatrix_eq {q : Ros.Quaternion ℝ} (hq : UnitLength q) :
    toRotationMatrix q = ofQuaternion q.x q.y q.z q.w := by
  simp only [toRotationMatrix, ofQuaternion, show _ = (1 : ℝ) from hq, div_one]

/-- The length of the coefficients. -/
noncomputable def quaternionNorm (q : Ros.Quaternion ℝ) : ℝ :=
  √(q.x * q.x + q.y * q.y + q.z * q.z + q.w * q.w)

lemma quaternionNorm_eq {q : Ros.Quaternion ℝ} (hq : UnitLength q) : quaternionNorm q = 1 := by
  rw [quaternionNorm, show _ = (1 : ℝ) from hq, Real.sqrt_one]

def rotationBlock (m : Ros.Mat4 ℝ) : Ros.Mat3 ℝ := fun i j => m i.castSucc j.castSucc

def translationBlock (m : Ros.Mat4 ℝ) : Fin 3 → ℝ := fun i => m i.castSucc (Fin.last 3)

/-- The operations of Eigen on matrices of real numbers. What a rotation matrix becomes as a
quaternion, and `slerp`, are parameters. -/
noncomputable def Lib.eigen (quat : Ros.Mat3 ℝ → Ros.Quaternion ℝ)
    (slerp : ℝ → Ros.Quaternion ℝ → Ros.Quaternion ℝ → Ros.Quaternion ℝ) :
    Lib ℝ (Ros.Mat4 ℝ) where
  isFinite _ := true
  toFloat x := x
  norm := quaternionNorm
  normalized q := ⟨q.x / quaternionNorm q, q.y / quaternionNorm q, q.z / quaternionNorm q,
    q.w / quaternionNorm q⟩
  slerp := slerp
  identity := 1
  mul a b := a * b
  inverse a := a⁻¹
  allFinite _ := true
  rotation m := quat (rotationBlock m)
  rotationDouble m := quat (rotationBlock m)
  translation m := ⟨translationBlock m 0, translationBlock m 1, translationBlock m 2⟩
  rigid q v := affine (toRotationMatrix q) ![v.x, v.y, v.z]
  fromMsg pose := affine (toRotationMatrix pose.orientation)
    ![pose.position.x, pose.position.y, pose.position.z]
  mulInverse a b :=
    let m :=
      affine (toRotationMatrix a.rotation) ![a.translation.x, a.translation.y, a.translation.z] *
        (affine (toRotationMatrix b.rotation)
          ![b.translation.x, b.translation.y, b.translation.z])⁻¹
    ⟨⟨translationBlock m 0, translationBlock m 1, translationBlock m 2⟩, quat (rotationBlock m)⟩

/-- The conversion of a rotation matrix gives a unit quaternion. -/
def ToUnit (quat : Ros.Mat3 ℝ → Ros.Quaternion ℝ) : Prop :=
  ∀ R ∈ specialOrthogonalGroup (Fin 3) ℝ, UnitLength (quat R)

/-- Between unit quaternions `slerp` gives unit quaternions. -/
def KeepsUnit (slerp : ℝ → Ros.Quaternion ℝ → Ros.Quaternion ℝ → Ros.Quaternion ℝ) : Prop :=
  ∀ t q r, 0 ≤ t → t ≤ 1 → UnitLength q → UnitLength r → UnitLength (slerp t q r)

variable {quat : Ros.Mat3 ℝ → Ros.Quaternion ℝ}
  {slerp : ℝ → Ros.Quaternion ℝ → Ros.Quaternion ℝ → Ros.Quaternion ℝ} {cfg : Config ℝ}
  {C M : Ros.Mat4 ℝ} {gain : ℝ}

@[simp] lemma translationBlock_affine (R : Ros.Mat3 ℝ) (t : Fin 3 → ℝ) :
    translationBlock (affine R t) = t :=
  funext fun i => affine_castSucc_last i

@[simp] lemma rotationBlock_affine (R : Ros.Mat3 ℝ) (t : Fin 3 → ℝ) :
    rotationBlock (affine R t) = R := by
  ext i j
  simp [rotationBlock]

lemma rotationBlock_mem (hM : IsRigid M) : rotationBlock M ∈ specialOrthogonalGroup (Fin 3) ℝ := by
  obtain ⟨R, hR, t, rfl⟩ := hM
  rwa [rotationBlock_affine]

lemma normalized_eq {q : Ros.Quaternion ℝ} (hq : UnitLength q) :
    (Lib.eigen quat slerp).normalized q = q := by
  simp only [Lib.eigen, quaternionNorm_eq hq, div_one]

/-! ### Blending -/

/-- The gain as the blend uses it. -/
noncomputable def clampedGain (gain : ℝ) : ℝ := max 0 (min gain 1)

lemma clamp_eq (gain : ℝ) : clamp gain (CppFloat.lit 0) (CppFloat.lit 1) = clampedGain gain := by
  simp only [clamp, clampedGain, CppMath.real_lt, CppMath.real_lit, decide_eq_true_eq,
    Rat.cast_zero, Rat.cast_one]
  split_ifs with h₀ h₁
  · rw [max_eq_left ((min_le_left _ _).trans h₀.le)]
  · rw [min_eq_right h₁.le, max_eq_right zero_le_one]
  · rw [min_eq_left (not_lt.mp h₁), max_eq_right (not_lt.mp h₀)]

/-- What the blend of two rigid transforms is. -/
structure Blended (gain : ℝ) (C M B : Ros.Mat4 ℝ) : Prop where
  rigid : IsRigid B
  translation : translationBlock B - translationBlock M =
    (1 - clampedGain gain) • (translationBlock C - translationBlock M)
  measured : 1 ≤ gain → B = M
  kept : gain ≤ 0 → B = C

lemma toRotationMatrix_mem {q : Ros.Quaternion ℝ} (hq : UnitLength q) :
    toRotationMatrix q ∈ specialOrthogonalGroup (Fin 3) ℝ := by
  rw [toRotationMatrix_eq hq]
  refine ofQuaternion_mem ?_
  rw [show _ = (1 : ℝ) from hq]
  exact one_ne_zero

lemma toFloat_clamp : (Lib.eigen quat slerp).toFloat
    (clamp gain (CppFloat.lit 0) (CppFloat.lit 1)) = clampedGain gain :=
  clamp_eq gain

lemma blend_of_nonpos (h : clampedGain gain ≤ 0) :
    blendRigidTransforms (.eigen quat slerp) C M gain = C := by
  have hzero : CppFloat.lt (CppFloat.lit 0) (clampedGain gain) = false := by simpa using h
  simp only [blendRigidTransforms, toFloat_clamp, hzero, Bool.not_false, Bool.true_or, if_true]

lemma blend_of_one_le (h : 1 ≤ clampedGain gain) :
    blendRigidTransforms (.eigen quat slerp) C M gain = M := by
  have hzero : CppFloat.lt (CppFloat.lit 0) (clampedGain gain) = true := by
    simpa using one_pos.trans_le h
  have hone : CppFloat.lt (clampedGain gain) (CppFloat.lit 1) = false := by simpa using h
  have hfinite : (Lib.eigen quat slerp).allFinite M = true := rfl
  simp only [blendRigidTransforms, toFloat_clamp, hzero, hone, hfinite, Bool.not_true,
    Bool.not_false, Bool.or_self, Bool.true_or, Bool.false_eq_true, if_true, if_false]

/-- Between the ends the rotation is that of `slerp`, and the translations are averaged. -/
lemma blend_between (hquat : ToUnit quat) (hslerp : KeepsUnit slerp) (hC : IsRigid C)
    (hM : IsRigid M) (h₀ : 0 < clampedGain gain) (h₁ : clampedGain gain < 1) :
    ∃ R ∈ specialOrthogonalGroup (Fin 3) ℝ,
      blendRigidTransforms (.eigen quat slerp) C M gain = affine R
        ((1 - clampedGain gain) • translationBlock C + clampedGain gain • translationBlock M) := by
  have hqC := hquat _ (rotationBlock_mem hC)
  have hqM := hquat _ (rotationBlock_mem hM)
  have hunit := hslerp (clampedGain gain) _ _ h₀.le h₁.le hqC hqM
  refine ⟨_, toRotationMatrix_mem hunit, ?_⟩
  have hzero : CppFloat.lt (CppFloat.lit 0) (clampedGain gain) = true := by simpa using h₀
  have hone : CppFloat.lt (clampedGain gain) (CppFloat.lit 1) = true := by simpa using h₁
  have hsmall : CppFloat.lt (1 : ℝ) (CppFloat.lit (1 / 10 ^ 6)) = false := by norm_num
  have hfinite : ∀ q, finiteQuaternion (Lib.eigen quat slerp) q = true := fun _ => rfl
  have hall : ∀ m, (Lib.eigen quat slerp).allFinite m = true := fun _ => rfl
  have hrot : ∀ m, (Lib.eigen quat slerp).rotation m = quat (rotationBlock m) := fun _ => rfl
  have hnormC : (Lib.eigen quat slerp).norm (quat (rotationBlock C)) = 1 := quaternionNorm_eq hqC
  have hnormM : (Lib.eigen quat slerp).norm (quat (rotationBlock M)) = 1 := quaternionNorm_eq hqM
  have hslerpUnit : (Lib.eigen quat slerp).normalized ((Lib.eigen quat slerp).slerp
      (clampedGain gain) (quat (rotationBlock C)) (quat (rotationBlock M))) =
        slerp (clampedGain gain) (quat (rotationBlock C)) (quat (rotationBlock M)) :=
    normalized_eq hunit
  simp only [blendRigidTransforms, toFloat_clamp, hzero, hone, hsmall, hfinite, hall, hrot, hnormC,
    hnormM, normalized_eq hqC, normalized_eq hqM, hslerpUnit, Bool.not_true, Bool.or_self,
    Bool.false_eq_true, if_false]
  show affine _ _ = affine _ _
  congr 1
  funext i
  fin_cases i <;> simp [Lib.eigen]

lemma blended_blendRigidTransforms (hquat : ToUnit quat) (hslerp : KeepsUnit slerp)
    (hC : IsRigid C) (hM : IsRigid M) (gain : ℝ) :
    Blended gain C M (blendRigidTransforms (.eigen quat slerp) C M gain) := by
  have hmeasured : 1 ≤ gain → 1 ≤ clampedGain gain := fun h => by
    rw [clampedGain, min_eq_right h]
    exact le_max_right _ _
  have hkept : gain ≤ 0 → clampedGain gain ≤ 0 := fun h => by
    rw [clampedGain, min_eq_left (h.trans zero_le_one), max_eq_left h]
  have hle : clampedGain gain ≤ 1 := max_le zero_le_one (min_le_right _ _)
  have hnonneg : 0 ≤ clampedGain gain := le_max_left _ _
  rcases le_or_gt (clampedGain gain) 0 with h₀ | h₀
  · rw [blend_of_nonpos h₀]
    refine ⟨hC, ?_, fun h => ?_, fun _ => rfl⟩
    · rw [le_antisymm h₀ hnonneg, sub_zero, one_smul]
    · linarith [hmeasured h]
  rcases le_or_gt 1 (clampedGain gain) with h₁ | h₁
  · rw [blend_of_one_le h₁]
    refine ⟨hM, ?_, fun _ => rfl, fun h => ?_⟩
    · rw [le_antisymm hle h₁, sub_self, sub_self, zero_smul]
    · linarith [hkept h]
  · obtain ⟨R, hR, heq⟩ := blend_between hquat hslerp hC hM h₀ h₁
    rw [heq]
    refine ⟨isRigid_affine hR _, ?_, fun h => ?_, fun h => ?_⟩
    · rw [translationBlock_affine]
      module
    · linarith [hmeasured h]
    · linarith [hkept h]

/-! ### The node -/

variable {s s' : Node ℝ (Ros.Mat4 ℝ)} {measured odom pose : Ros.Mat4 ℝ} {stamp : ℝ}

/-- What the node holds are rigid transforms. -/
structure RigidNode (s : Node ℝ (Ros.Mat4 ℝ)) : Prop where
  correction : ∀ C, s.mapToOdomCorrection = some C → IsRigid C
  history : ∀ timed ∈ s.absoluteOdomHistory, IsRigid timed.poseMatrix

lemma RigidNode.lookup (hs : RigidNode s)
    (h : s.lookupAbsoluteOdomPose (.eigen quat slerp) cfg stamp = some odom) : IsRigid odom := by
  obtain ⟨timed, hmem, rfl⟩ := exists_mem_of_nearestTimedPose h
  exact hs.history timed hmem

variable (quat slerp) in
lemma RigidNode.cache (hs : RigidNode s) (stamp : ℝ) (hodom : IsRigid odom) :
    RigidNode (s.cacheAbsoluteOdomPose (.eigen quat slerp) cfg stamp odom) := by
  obtain ⟨history, heq, hmem⟩ := s.cacheAbsoluteOdomPose_eq (.eigen quat slerp) cfg stamp odom
  rw [heq]
  refine ⟨hs.correction, fun timed htimed => ?_⟩
  rcases hmem timed htimed with hold | hnew
  · exact hs.history timed hold
  · rwa [hnew]

/-- The correction that a measurement makes of the stored one, if its transform is `M`. -/
def Corrects (gain : ℝ) (M : Ros.Mat4 ℝ) : Option (Ros.Mat4 ℝ) → Ros.Mat4 ℝ → Prop
  | none, B => B = M
  | some C, B => Blended gain C M B

/-- Without an odometry pose nothing happens; with one the correction is stored and applied to
it. -/
lemma RigidNode.filter_cases (hquat : ToUnit quat) (hslerp : KeepsUnit slerp) (hs : RigidNode s)
    (hmeasured : IsRigid measured) (stamp : ℝ) :
    (s.lookupAbsoluteOdomPose (.eigen quat slerp) cfg stamp = none ∧
      s.filterAcceptedMapPoseWithAbsoluteOdom (.eigen quat slerp) cfg measured stamp = (s, none)) ∨
    ∃ odom B, s.lookupAbsoluteOdomPose (.eigen quat slerp) cfg stamp = some odom ∧
      IsRigid odom ∧ IsRigid B ∧
      Corrects cfg.absoluteOdomCorrectionGain (measured * odom⁻¹) s.mapToOdomCorrection B ∧
      s.filterAcceptedMapPoseWithAbsoluteOdom (.eigen quat slerp) cfg measured stamp =
        ({ s with mapToOdomCorrection := some B }, some (B * odom)) := by
  have hall : ∀ m, (Lib.eigen quat slerp).allFinite m = true := fun _ => rfl
  simp only [Node.filterAcceptedMapPoseWithAbsoluteOdom, hall, Bool.not_true, Bool.false_eq_true,
    if_false, if_true]
  cases hlookup : s.lookupAbsoluteOdomPose (.eigen quat slerp) cfg stamp with
  | none => exact Or.inl ⟨rfl, rfl⟩
  | some odom =>
    have hodom := hs.lookup hlookup
    have himplied : IsRigid (measured * odom⁻¹) := hmeasured.mul hodom.inv
    right
    cases hC : s.mapToOdomCorrection with
    | none => exact ⟨odom, measured * odom⁻¹, rfl, hodom, himplied, rfl, rfl⟩
    | some C =>
      have hblend := blended_blendRigidTransforms hquat hslerp (hs.correction C hC) himplied
        cfg.absoluteOdomCorrectionGain
      exact ⟨odom, _, rfl, hodom, hblend.rigid, hblend, rfl⟩

/-! ### Runs -/

/-- A call of the functions of the node that use the correction. -/
inductive Call where
  | cache (stampSec : ℝ) (odomToBase : Ros.Mat4 ℝ)
  | predict (stampSec : ℝ)
  | reset (mapToBase : Ros.Mat4 ℝ) (stampSec : ℝ)
  | accept (measuredMapToBase : Ros.Mat4 ℝ) (stampSec : ℝ)

/-- The poses of the call are rigid transforms. -/
def Call.Rigid : Call → Prop
  | .cache _ pose | .reset pose _ | .accept pose _ => IsRigid pose
  | .predict _ => True

/-- The node, what the last call returned and how many measurements were filtered. -/
structure Filter where
  node : Node ℝ (Ros.Mat4 ℝ)
  returned : Option (Ros.Mat4 ℝ)
  filtered : ℕ

namespace Filter

variable {calls more : List Call} {w w' : Filter} {call : Call}

noncomputable def step (lib : Lib ℝ (Ros.Mat4 ℝ)) (cfg : Config ℝ) (w : Filter) :
    Call → Option Filter
  | .cache stampSec odomToBase =>
    some { w with
      node := w.node.cacheAbsoluteOdomPose lib cfg stampSec odomToBase
      returned := none }
  | .predict stampSec =>
    some { w with returned := w.node.predictMapPoseFromAbsoluteOdom lib cfg stampSec }
  | .reset mapToBase stampSec =>
    some { w with
      node := (w.node.resetMapToOdomCorrection lib cfg mapToBase stampSec).getD w.node
      returned := none }
  | .accept measuredMapToBase stampSec =>
    let r := w.node.filterAcceptedMapPoseWithAbsoluteOdom lib cfg measuredMapToBase stampSec
    some ⟨r.1, r.2, if r.2.isSome then w.filtered + 1 else w.filtered⟩

lemma rigidNode_step (hquat : ToUnit quat) (hslerp : KeepsUnit slerp) (hw : RigidNode w.node)
    (hcall : call.Rigid) (h : step (.eigen quat slerp) cfg w call = some w') :
    RigidNode w'.node := by
  cases call with
  | cache stampSec odomToBase =>
    obtain rfl := Option.some.inj h
    exact hw.cache quat slerp stampSec hcall
  | predict stampSec =>
    obtain rfl := Option.some.inj h
    exact hw
  | reset mapToBase stampSec =>
    obtain rfl := Option.some.inj h
    show RigidNode ((w.node.resetMapToOdomCorrection _ cfg mapToBase stampSec).getD w.node)
    rw [Node.resetMapToOdomCorrection_eq]
    cases hreset : w.node.resetCorrection (.eigen quat slerp) cfg mapToBase stampSec with
    | none => exact hw
    | some mapToOdom =>
      obtain ⟨odom, hlookup, rfl⟩ := Node.exists_lookup_of_resetCorrection hreset
      exact ⟨fun C hC => Option.some.inj hC ▸ IsRigid.mul hcall (hw.lookup hlookup).inv,
        hw.history⟩
  | accept measured stampSec =>
    obtain rfl := Option.some.inj h
    show RigidNode (w.node.filterAcceptedMapPoseWithAbsoluteOdom _ cfg measured stampSec).1
    rcases hw.filter_cases hquat hslerp hcall stampSec with
      ⟨-, heq⟩ | ⟨odom, B, -, -, hB, -, heq⟩
    · rwa [heq]
    · rw [heq]
      exact ⟨fun C hC => Option.some.inj hC ▸ hB, hw.history⟩

lemma rigidNode_of_run (hquat : ToUnit quat) (hslerp : KeepsUnit slerp) (hw : RigidNode w.node)
    (hcalls : ∀ call ∈ calls, call.Rigid) (hrun : Run (step (.eigen quat slerp) cfg) w calls w') :
    RigidNode w'.node :=
  Run.invariant_of_events (I := fun w => RigidNode w.node) hw
    (fun _ _ _ hw hcall h => rigidNode_step hquat hslerp hw hcall h) hrun hcalls

/-- The call neither measures nor resets. -/
def Passive : Call → Prop
  | .cache _ _ | .predict _ => True
  | .reset _ _ | .accept _ _ => False

lemma correction_of_passive {lib : Lib ℝ (Ros.Mat4 ℝ)} (hcall : Passive call)
    (h : step lib cfg w call = some w') :
    w'.node.mapToOdomCorrection = w.node.mapToOdomCorrection ∧ w'.filtered = w.filtered := by
  cases call with
  | cache stampSec odomToBase =>
    obtain rfl := Option.some.inj h
    obtain ⟨history, heq, -⟩ := w.node.cacheAbsoluteOdomPose_eq lib cfg stampSec odomToBase
    refine ⟨?_, rfl⟩
    show (w.node.cacheAbsoluteOdomPose _ cfg stampSec odomToBase).mapToOdomCorrection = _
    rw [heq]
  | predict stampSec =>
    obtain rfl := Option.some.inj h
    exact ⟨rfl, rfl⟩
  | reset mapToBase stampSec => exact hcall.elim
  | accept measured stampSec => exact hcall.elim

lemma correction_of_passive_run {lib : Lib ℝ (Ros.Mat4 ℝ)} (hcalls : ∀ call ∈ calls, Passive call)
    (hrun : Run (step lib cfg) w calls w') :
    w'.node.mapToOdomCorrection = w.node.mapToOdomCorrection :=
  Run.invariant_of_events
    (I := fun v => v.node.mapToOdomCorrection = w.node.mapToOdomCorrection) rfl
    (fun _ _ _ hv hcall h => (correction_of_passive hcall h).1.trans hv) hrun hcalls

/-! ### Contraction -/

/-- A measurement implies the correction `M`, and the correction is not reset. -/
def Agrees (lib : Lib ℝ (Ros.Mat4 ℝ)) (cfg : Config ℝ) (M : Ros.Mat4 ℝ) (w : Filter) :
    Call → Prop
  | .cache _ _ | .predict _ => True
  | .reset _ _ => False
  | .accept measured stampSec => ∀ odom,
    w.node.lookupAbsoluteOdomPose lib cfg stampSec = some odom → measured * odom⁻¹ = M

/-- The stored correction, whose distance from `M` is that from `C₀`, scaled by the gain once for
each filtered measurement. -/
def Drawn (gain : ℝ) (C₀ M : Ros.Mat4 ℝ) (w : Filter) : Prop :=
  ∃ C, w.node.mapToOdomCorrection = some C ∧
    translationBlock C - translationBlock M =
      (1 - clampedGain gain) ^ w.filtered • (translationBlock C₀ - translationBlock M)

lemma Drawn.step {C₀ : Ros.Mat4 ℝ} (hquat : ToUnit quat) (hslerp : KeepsUnit slerp)
    (hw : RigidNode w.node) (hcall : call.Rigid)
    (hdrawn : Drawn cfg.absoluteOdomCorrectionGain C₀ M w)
    (hagrees : Agrees (.eigen quat slerp) cfg M w call)
    (h : step (.eigen quat slerp) cfg w call = some w') :
    Drawn cfg.absoluteOdomCorrectionGain C₀ M w' := by
  obtain ⟨C, hC, hdist⟩ := hdrawn
  have hpassive (hcall : Passive call) : Drawn cfg.absoluteOdomCorrectionGain C₀ M w' := by
    obtain ⟨hkept, hfiltered⟩ := correction_of_passive hcall h
    exact ⟨C, hkept.trans hC, hfiltered ▸ hdist⟩
  cases call with
  | cache | predict => exact hpassive trivial
  | reset mapToBase stampSec => exact hagrees.elim
  | accept measured stampSec =>
    obtain rfl := Option.some.inj h
    rw [Drawn]
    rcases hw.filter_cases hquat hslerp hcall stampSec with
      ⟨-, heq⟩ | ⟨odom, B, hlookup, -, -, hB, heq⟩
    · rw [heq]
      exact ⟨C, hC, hdist⟩
    · rw [hC, hagrees odom hlookup] at hB
      rw [heq]
      refine ⟨B, rfl, ?_⟩
      rw [hB.translation, hdist, smul_smul, ← pow_succ']
      rfl

lemma drawn_of_run {C₀ : Ros.Mat4 ℝ} (hquat : ToUnit quat) (hslerp : KeepsUnit slerp)
    (hw : RigidNode w.node) (hdrawn : Drawn cfg.absoluteOdomCorrectionGain C₀ M w)
    (hcalls : ∀ call ∈ calls, call.Rigid) (hrun : Run (step (.eigen quat slerp) cfg) w calls w')
    (hagrees : Always (step (.eigen quat slerp) cfg) w (Agrees (.eigen quat slerp) cfg M) calls) :
    Drawn cfg.absoluteOdomCorrectionGain C₀ M w' := by
  have hboth := hrun.invariant
    (I := fun _ w => RigidNode w.node ∧ Drawn cfg.absoluteOdomCorrectionGain C₀ M w) ⟨hw, hdrawn⟩
    (fun _ w call w' _ hcall ⟨hw, hdrawn⟩ h => ⟨rigidNode_step hquat hslerp hw hcall.1 h,
      hdrawn.step hquat hslerp hw hcall.1 hcall.2 h⟩) ((always_of_forall_mem hcalls).and hagrees)
  exact hboth.2

/-! ### The filter -/

noncomputable def init (lib : Lib ℝ (Ros.Mat4 ℝ)) : Filter := ⟨Node.init lib, none, 0⟩

/-- After any calls, a measurement that is filtered leaves a rigid correction, and the pose that is
returned is this correction applied to the odometry pose; it is the measured pose if the gain is one
at least or there was no correction, and the correction stays if the gain is not positive. -/
def Consistent (lib : Lib ℝ (Ros.Mat4 ℝ)) (cfg : Config ℝ) (w : Filter) : Prop :=
  ∀ ⦃measured stampSec w' pose⦄, IsRigid measured →
    step lib cfg w (.accept measured stampSec) = some w' → w'.returned = some pose →
    ∃ odom C, w.node.lookupAbsoluteOdomPose lib cfg stampSec = some odom ∧
      w'.node.mapToOdomCorrection = some C ∧ IsRigid C ∧ pose = C * odom ∧
      (1 ≤ cfg.absoluteOdomCorrectionGain ∨ w.node.mapToOdomCorrection = none → pose = measured) ∧
      (cfg.absoluteOdomCorrectionGain ≤ 0 → ∀ C₀, w.node.mapToOdomCorrection = some C₀ → C = C₀)

lemma consistent (hquat : ToUnit quat) (hslerp : KeepsUnit slerp) (hw : RigidNode w.node) :
    Consistent (.eigen quat slerp) cfg w := by
  intro measured stampSec w' pose hmeasured h hpose
  obtain rfl := Option.some.inj h
  rcases hw.filter_cases hquat hslerp hmeasured stampSec with
    ⟨-, heq⟩ | ⟨odom, B, hlookup, hodom, hB, hcorrects, heq⟩
  · rw [heq] at hpose
    cases hpose
  rw [heq] at hpose ⊢
  obtain rfl := Option.some.inj hpose
  have hback : measured * odom⁻¹ * odom = measured := by rw [mul_assoc, hodom.inv_mul, mul_one]
  refine ⟨odom, B, hlookup, rfl, hB, rfl, ?_, ?_⟩
  · intro h
    cases hC : w.node.mapToOdomCorrection with
    | none =>
      rw [hC] at hcorrects
      rw [show B = _ from hcorrects, hback]
    | some C =>
      rw [hC] at h hcorrects
      rw [hcorrects.measured (h.resolve_right (by simp)), hback]
  · intro hgain C₀ hC
    rw [hC] at hcorrects
    exact hcorrects.kept hgain

/-- The filter is consistent after any calls, it contracts to a correction on which the measurements
agree, and calls that do not measure leave the correction alone. -/
theorem correction_contracts (hquat : ToUnit quat) (hslerp : KeepsUnit slerp)
    (hcalls : ∀ call ∈ calls, call.Rigid)
    (hrun : Run (step (.eigen quat slerp) cfg) (init (.eigen quat slerp)) calls w) :
    Consistent (.eigen quat slerp) cfg w ∧
      (∀ C₀ M more w', w.node.mapToOdomCorrection = some C₀ → (∀ call ∈ more, call.Rigid) →
        Run (step (.eigen quat slerp) cfg) { w with filtered := 0 } more w' →
        Always (step (.eigen quat slerp) cfg) { w with filtered := 0 }
          (Agrees (.eigen quat slerp) cfg M) more →
        ∃ C, w'.node.mapToOdomCorrection = some C ∧
          translationBlock C - translationBlock M =
            (1 - clampedGain cfg.absoluteOdomCorrectionGain) ^ w'.filtered •
              (translationBlock C₀ - translationBlock M)) ∧
      ∀ more w', (∀ call ∈ more, Passive call) → Run (step (.eigen quat slerp) cfg) w more w' →
        w'.node.mapToOdomCorrection = w.node.mapToOdomCorrection := by
  have hinit : RigidNode (init (.eigen quat slerp)).node := ⟨by rintro C ⟨⟩, by rintro timed ⟨⟩⟩
  have hw := rigidNode_of_run hquat hslerp hinit hcalls hrun
  refine ⟨consistent hquat hslerp hw, ?_, fun more w' hmore h => correction_of_passive_run hmore h⟩
  intro C₀ M more w' hC₀ hmore hmoreRun hagrees
  have hdrawn : Drawn cfg.absoluteOdomCorrectionGain C₀ M { w with filtered := 0 } :=
    ⟨C₀, hC₀, by rw [pow_zero, one_smul]⟩
  exact drawn_of_run hquat hslerp (w := { w with filtered := 0 }) hw hdrawn hmore hmoreRun hagrees

end Filter

/-! ### Eigen's interpolation -/

/-- `slerp` of Eigen, on the shorter arc. -/
noncomputable def eigenSlerp (t : ℝ) (q r : Ros.Quaternion ℝ) : Ros.Quaternion ℝ :=
  let d := q.x * r.x + q.y * r.y + q.z * r.z + q.w * r.w
  let θ := Real.arccos |d|
  let scale0 := if 1 ≤ |d| then 1 - t else Real.sin ((1 - t) * θ) / Real.sin θ
  let scale1 := if 1 ≤ |d| then t else Real.sin (t * θ) / Real.sin θ
  let scale1 := if d < 0 then -scale1 else scale1
  ⟨scale0 * q.x + scale1 * r.x, scale0 * q.y + scale1 * r.y, scale0 * q.z + scale1 * r.z,
    scale0 * q.w + scale1 * r.w⟩

lemma sin_sq_add (A B : ℝ) :
    Real.sin A ^ 2 + Real.sin B ^ 2 + 2 * Real.sin A * Real.sin B * Real.cos (A + B) =
      Real.sin (A + B) ^ 2 := by
  rw [Real.sin_add, Real.cos_add]
  linear_combination (-Real.sin A ^ 2) * Real.sin_sq_add_cos_sq B -
    Real.sin B ^ 2 * Real.sin_sq_add_cos_sq A

/-- The length of a sum of two unit quaternions with the scalar product `d`. -/
lemma unitLength_add {q r : Ros.Quaternion ℝ} {a b d : ℝ} (hq : UnitLength q) (hr : UnitLength r)
    (hd : d = q.x * r.x + q.y * r.y + q.z * r.z + q.w * r.w)
    (h : a ^ 2 + b ^ 2 + 2 * a * b * d = 1) :
    UnitLength ⟨a * q.x + b * r.x, a * q.y + b * r.y, a * q.z + b * r.z, a * q.w + b * r.w⟩ := by
  simp only [UnitLength] at hq hr ⊢
  rw [hd] at h
  linear_combination a ^ 2 * hq + b ^ 2 * hr + h

lemma abs_dot_le {q r : Ros.Quaternion ℝ} (hq : UnitLength q) (hr : UnitLength r) :
    |q.x * r.x + q.y * r.y + q.z * r.z + q.w * r.w| ≤ 1 := by
  simp only [UnitLength] at hq hr
  rw [abs_le]
  constructor
  · nlinarith [sq_nonneg (q.x + r.x), sq_nonneg (q.y + r.y), sq_nonneg (q.z + r.z),
      sq_nonneg (q.w + r.w)]
  · nlinarith [sq_nonneg (q.x - r.x), sq_nonneg (q.y - r.y), sq_nonneg (q.z - r.z),
      sq_nonneg (q.w - r.w)]

lemma keepsUnit_eigenSlerp : KeepsUnit eigenSlerp := by
  intro t q r _ _ hq hr
  have hle := abs_dot_le hq hr
  simp only [eigenSlerp]
  refine unitLength_add hq hr rfl ?_
  generalize q.x * r.x + q.y * r.y + q.z * r.z + q.w * r.w = d at hle
  -- the sign of the second factor makes its product with `d` that with `|d|`
  have hsign : ∀ a b : ℝ, a ^ 2 + b ^ 2 + 2 * a * b * |d| = 1 →
      a ^ 2 + (if d < 0 then -b else b) ^ 2 + 2 * a * (if d < 0 then -b else b) * d = 1 := by
    intro a b h
    split_ifs with hd
    · rw [abs_of_neg hd] at h
      linear_combination h
    · rwa [abs_of_nonneg (not_lt.mp hd)] at h
  apply hsign
  split_ifs with hone
  · rw [le_antisymm hle hone]
    ring
  · have hpos : 0 < Real.sin (Real.arccos |d|) := by
      refine Real.sin_pos_of_pos_of_lt_pi (Real.arccos_pos.mpr (not_le.mp hone)) ?_
      refine lt_of_le_of_lt (Real.arccos_le_pi_div_two.mpr (abs_nonneg d)) ?_
      linarith [Real.pi_pos]
    have hcos : Real.cos (Real.arccos |d|) = |d| :=
      Real.cos_arccos (by linarith [abs_nonneg d]) hle
    have hsum := sin_sq_add ((1 - t) * Real.arccos |d|) (t * Real.arccos |d|)
    rw [← add_mul, sub_add_cancel, one_mul, hcos] at hsum
    field_simp
    linear_combination hsum

/-- The quaternion in the row of the largest coordinate. -/
noncomputable def eigenQuat (R : Ros.Mat3 ℝ) : Ros.Quaternion ℝ :=
  .ofCoords (quaternionRow R (pivot R))

lemma toUnit_eigenQuat : ToUnit eigenQuat := fun R hR => unitLength_row hR (gram_pivot_pos R)

/-! The odometry is at its origin, and then a meter to the left. The first measurement has the robot
at the origin of the map. The next two, one at each pose, have it a meter further ahead. -/

namespace Filter

noncomputable def exactLib : Lib ℝ (Ros.Mat4 ℝ) := .eigen eigenQuat eigenSlerp

noncomputable def ahead : Ros.Mat4 ℝ := affine 1 ![1, 0, 0]

noncomputable def left : Ros.Mat4 ℝ := affine 1 ![0, 1, 0]

lemma isRigid_ahead : IsRigid ahead := isRigid_affine (one_mem _) _

lemma isRigid_left : IsRigid left := isRigid_affine (one_mem _) _

lemma lookup_origin {s : Node ℝ (Ros.Mat4 ℝ)} (h : s.absoluteOdomHistory = [⟨0, 1⟩]) :
    s.lookupAbsoluteOdomPose exactLib .parameters 0 = some 1 := by
  simp [Node.lookupAbsoluteOdomPose, nearestTimedPose, nearestLoop, h, exactLib, Lib.eigen,
    Config.parameters]

lemma lookup_left {s : Node ℝ (Ros.Mat4 ℝ)} (h : s.absoluteOdomHistory = [⟨0, 1⟩, ⟨1, left⟩]) :
    s.lookupAbsoluteOdomPose exactLib .parameters 1 = some left := by
  have hpast : ¬(1 : ℝ) < 0 := not_lt.mpr zero_le_one
  simp [Node.lookupAbsoluteOdomPose, nearestTimedPose, nearestLoop, h, exactLib, Lib.eigen,
    Config.parameters, hpast]

/-- The node with the odometry pose at its origin. -/
lemma cached_origin : ((Node.init exactLib).cacheAbsoluteOdomPose exactLib .parameters 0 1) =
    { Node.init exactLib with absoluteOdomHistory := [⟨0, 1⟩] } := by
  simp [Node.cacheAbsoluteOdomPose, Node.init, exactLib, Lib.eigen, Config.parameters]

lemma run_origin : ∃ w, Run (step exactLib .parameters) (init exactLib)
      [.cache 0 1, .accept 1 0] w ∧
    w.node.absoluteOdomHistory = [⟨0, 1⟩] ∧ w.node.mapToOdomCorrection = some 1 := by
  have hcached : Run (step exactLib .parameters) (init exactLib) [.cache 0 1] _ :=
    Run.snoc Run.nil rfl
  refine ⟨_, hcached.snoc rfl, ?_⟩
  have hlookup := lookup_origin
    (s := { Node.init exactLib with absoluteOdomHistory := [⟨0, 1⟩] }) rfl
  simp only [init, cached_origin, Node.filterAcceptedMapPoseWithAbsoluteOdom, hlookup]
  simp [exactLib, Lib.eigen, Node.init, mapToOdomFromPoses]

/-- A measurement with an odometry pose is filtered. -/
lemma step_accept {odom : Ros.Mat4 ℝ} {stampSec : ℝ} (measured : Ros.Mat4 ℝ)
    (hlookup : w.node.lookupAbsoluteOdomPose exactLib .parameters stampSec = some odom) :
    ∃ w', step exactLib .parameters w (.accept measured stampSec) = some w' ∧
      w'.filtered = w.filtered + 1 ∧
      w'.node.absoluteOdomHistory = w.node.absoluteOdomHistory := by
  have hfiltered : (w.node.filterAcceptedMapPoseWithAbsoluteOdom exactLib .parameters measured
      stampSec).2.isSome = true := by
    simp only [Node.filterAcceptedMapPoseWithAbsoluteOdom, hlookup]
    simp [exactLib, Lib.eigen]
  refine ⟨_, rfl, if_pos hfiltered, ?_⟩
  simp only [Node.filterAcceptedMapPoseWithAbsoluteOdom, hlookup]
  simp [exactLib, Lib.eigen]

/-- The odometry pose to the left is cached. -/
lemma step_cache (h : w.node.absoluteOdomHistory = [⟨0, 1⟩]) :
    ∃ w', step exactLib .parameters w (.cache 1 left) = some w' ∧ w'.filtered = w.filtered ∧
      w'.node.absoluteOdomHistory = [⟨0, 1⟩, ⟨1, left⟩] := by
  have hpast : ¬(1 : ℝ) < 0 := not_lt.mpr zero_le_one
  refine ⟨_, rfl, rfl, ?_⟩
  simp [Node.cacheAbsoluteOdomPose, h, exactLib, Lib.eigen, Config.parameters, hpast]

/-- Two measurements that agree, at different odometry poses, each take a tenth of what is left. -/
theorem correction_contracts_ahead :
    ∃ w w' C, Run (step exactLib .parameters) (init exactLib) [.cache 0 1, .accept 1 0] w ∧
      Run (step exactLib .parameters) { w with filtered := 0 }
        [.accept ahead 0, .cache 1 left, .accept (ahead * left) 1] w' ∧
      w'.filtered = 2 ∧ w'.node.mapToOdomCorrection = some C ∧
      translationBlock C - translationBlock ahead =
        (81 / 100 : ℝ) • (translationBlock 1 - translationBlock ahead) := by
  obtain ⟨w, hrun, hhistory, hC⟩ := run_origin
  have hrigid : ∀ call ∈ [Call.cache 0 1, .accept 1 0], call.Rigid := by
    simp [Call.Rigid, isRigid_one]
  obtain ⟨-, hdrawn, -⟩ :=
    correction_contracts toUnit_eigenQuat keepsUnit_eigenSlerp hrigid hrun
  have hlookup := lookup_origin hhistory
  obtain ⟨w₁, h₁, hone, hhistory₁⟩ := step_accept (w := { w with filtered := 0 }) ahead hlookup
  obtain ⟨w₂, h₂, hcached, hhistory₂⟩ := step_cache (hhistory₁.trans hhistory)
  have hlookup₂ := lookup_left hhistory₂
  obtain ⟨w₃, h₃, htwo, -⟩ := step_accept (ahead * left) hlookup₂
  have hmore : Run (step exactLib .parameters) { w with filtered := 0 }
      [.accept ahead 0, .cache 1 left, .accept (ahead * left) 1] w₃ :=
    run_cons_iff.mpr ⟨w₁, h₁, run_cons_iff.mpr ⟨w₂, h₂, run_cons_iff.mpr ⟨w₃, h₃, Run.nil⟩⟩⟩
  -- both measurements imply the correction `ahead`
  have hagrees : Always (step exactLib .parameters) { w with filtered := 0 }
      (Agrees exactLib .parameters ahead)
      [.accept ahead 0, .cache 1 left, .accept (ahead * left) 1] := by
    refine Always.cons ?_ fun v hv => Always.cons trivial fun v' hv' =>
      Always.cons ?_ fun _ _ => always_nil
    · intro odom hodom
      obtain rfl := Option.some.inj (hlookup.symm.trans hodom)
      rw [inv_one, mul_one]
    · obtain rfl := Option.some.inj (h₁.symm.trans hv)
      obtain rfl := Option.some.inj (h₂.symm.trans hv')
      intro odom hodom
      obtain rfl := Option.some.inj (hlookup₂.symm.trans hodom)
      rw [mul_assoc, mul_eq_one_comm.mp isRigid_left.inv_mul, mul_one]
  have hmoreRigid : ∀ call ∈ [Call.accept ahead 0, .cache 1 left, .accept (ahead * left) 1],
      call.Rigid := by
    simp [Call.Rigid, isRigid_ahead, isRigid_left, isRigid_ahead.mul isRigid_left]
  obtain ⟨C, hC', hdist⟩ := hdrawn 1 ahead _ _ hC hmoreRigid hmore hagrees
  have hgain :
      1 - clampedGain (Config.parameters (F := ℝ)).absoluteOdomCorrectionGain = 9 / 10 := by
    norm_num [clampedGain, Config.parameters]
  have hfiltered : w₃.filtered = 2 := by rw [htwo, hcached, hone]
  refine ⟨w, w₃, C, hrun, hmore, hfiltered, hC', ?_⟩
  rw [hgain, hfiltered] at hdist
  rw [hdist]
  norm_num

end Filter

end PclLocalization
