import HumanoidNavigation.Localizer.Icp

/-!
# Point-to-plane registration is planar

`icp_point_to_plane` starts from the yaw of its initial transform and adds rotations about the z
axis and translations in the plane, whatever `lstsq` returns. So its result is planar, and as high
as the initial transform. The cascade of scales and the search over yaw seeds return such a result,
or their initial transform with the fitness `-1`.
-/

namespace Localizer

open PyFloat Except Ros NpArray Rotation

attribute [local instance] PyFloat.real

variable {lib : ThirdParty ℝ} {num : Numerics ℝ} {cfg : Config ℝ} {icfg : IcpConfig ℝ}
  {mapData : MapData ℝ} {m : LocalMap ℝ} {T T' initT hint : Mat4 ℝ} {r : IcpResult ℝ}

/-! ### Planar transforms -/

/-- The last row is that of a transform. -/
def Homogeneous (T : Mat4 ℝ) : Prop := T 3 = ![0, 0, 0, 1]

/-- The transform is a rotation about the z axis and a translation. -/
def Planar (T : Mat4 ℝ) : Prop := ∃ a t, T = affine (aboutZ a) t

/-- The functions of `scipy` that return a rotation about the z axis by an angle. -/
structure YawLaws (lib : ThirdParty ℝ) (num : Numerics ℝ) : Prop where
  fromYaw (a : ℝ) : lib.fromYaw a = aboutZ a
  fromRotvec (a : ℝ) : num.fromRotvec ⟨0, 0, a⟩ = aboutZ a

lemma homogeneous_affine (R : Mat3 ℝ) (t : Fin 3 → ℝ) : Homogeneous (affine R t) := by
  funext j
  fin_cases j <;> rfl

lemma Planar.homogeneous (h : Planar T) : Homogeneous T := by
  obtain ⟨a, t, rfl⟩ := h
  exact homogeneous_affine _ t

lemma homogeneous_hintToMatrix : Homogeneous (hintToMatrix lib cfg) := by
  rw [hintToMatrix, poseOf_eq]
  exact homogeneous_affine _ _

lemma homogeneous_seedInit {src : List (Vector3 ℝ)} {yaw : ℝ} (h : Homogeneous hint) :
    Homogeneous (seedInit num src hint yaw) := by
  rw [Homogeneous, seedInit, matMul_eq, eyeWith_eq]
  funext j
  exact (affine_mul_last (n := 3) _ _ hint j).trans (congrFun h j)

/-- A turn about the z axis and a shift in the plane keep the height. -/
lemma poseOf_mul_planar (h : Planar T) (a x y : ℝ) :
    Planar (poseOf (aboutZ a) ⟨x, y, 0⟩ * T) ∧ (poseOf (aboutZ a) ⟨x, y, 0⟩ * T) 2 3 = T 2 3 := by
  obtain ⟨b, t, rfl⟩ := h
  rw [poseOf_eq, affine_mul, aboutZ_mul]
  refine ⟨⟨_, _, rfl⟩, ?_⟩
  show (aboutZ a).mulVec t 2 + 0 = t 2
  simp [Matrix.mulVec, dotProduct, Fin.sum_univ_three, aboutZ]

/-! ### `icp_point_to_plane` -/

lemma withRotation_eq (hT : Homogeneous T) (R : Mat3 ℝ) :
    withRotation T R = affine R fun i => T i.castSucc 3 := by
  ext i j
  have hrow := congrFun hT j
  fin_cases i <;> fin_cases j <;> first | rfl | exact hrow

lemma projectYawOnly_ok (hlaws : YawLaws lib num) (hinit : Homogeneous initT)
    (h : projectYawOnly lib initT = .ok T) : Planar T ∧ T 2 3 = initT 2 3 := by
  obtain ⟨rpy, -, h⟩ := bind_eq_ok.mp h
  cases h
  rw [hlaws.fromYaw]
  exact ⟨⟨rpy.z, _, withRotation_eq hinit _⟩, rfl⟩

lemma planeIteration_ok (hlaws : YawLaws lib num) {tree : KdTree (Fin 3 → ℝ)}
    {tgt normals src : List (Fin 3 → ℝ)} {maxDist : ℝ} (hT : Planar T)
    (h : planeIteration num tree tgt normals src maxDist T = .ok (some T')) :
    Planar T' ∧ T' 2 3 = T 2 3 := by
  simp only [planeIteration] at h
  split_ifs at h
  · cases h
  · obtain ⟨pairs, -, h⟩ := bind_eq_ok.mp h
    obtain ⟨x, -, h⟩ := bind_eq_ok.mp h
    cases h
    rw [matMul_eq, real_lit, Rat.cast_zero, hlaws.fromRotvec]
    exact poseOf_mul_planar hT _ _ _

/-- The result is planar and as high as the initial transform. -/
lemma icpPointToPlane_ok (hlaws : YawLaws lib num) (hinit : Homogeneous initT)
    {src tgt normals : List (Vector3 ℝ)} {tree : KdTree (Vector3 ℝ)} {maxDist : ℝ} {k : ℕ}
    (h : icpPointToPlane lib num src tree tgt normals initT maxDist k = .ok r) :
    Planar r.T ∧ r.T 2 3 = initT 2 3 := by
  obtain ⟨T₀, hproj, h⟩ := bind_eq_ok.mp h
  obtain ⟨T, hloop, h⟩ := bind_eq_ok.mp h
  obtain ⟨_, -, h⟩ := bind_eq_ok.mp h
  cases h
  exact iterate_invariant (P := fun T => Planar T ∧ T 2 3 = initT 2 3)
    (fun T T' hT hstep => (planeIteration_ok hlaws hT.1 hstep).imp_right fun hz => hz.trans hT.2)
    (projectYawOnly_ok hlaws hinit hproj) hloop

/-! ### Scales and seeds -/

lemma foldlM_ok {α β : Type} {f : β → α → Except PyError β} {P : β → Prop}
    (hstep : ∀ b a b', P b → f b a = .ok b' → P b') {l : List α} {b c : β} (hb : P b)
    (h : l.foldlM f b = .ok c) : P c := by
  induction l generalizing b with
  | nil =>
    cases h
    exact hb
  | cons a l ih =>
    rw [List.foldlM_cons] at h
    obtain ⟨b', hb', h⟩ := bind_eq_ok.mp h
    exact ih (hstep b a b' hb hb') h

/-- The result is planar and as high as the initial transform, or it is the initial transform
with the fitness `-1`. -/
def PlanarOrSkipped (initT : Mat4 ℝ) (r : IcpResult ℝ) : Prop :=
  (r.T = initT ∧ r.fitness = -1) ∨ Planar r.T ∧ r.T 2 3 = initT 2 3

lemma PlanarOrSkipped.homogeneous (h : PlanarOrSkipped initT r) (hinit : Homogeneous initT) :
    Homogeneous r.T := by
  rcases h with ⟨hT, -⟩ | ⟨hT, -⟩
  · rwa [hT]
  · exact hT.homogeneous

lemma PlanarOrSkipped.height (h : PlanarOrSkipped initT r) : r.T 2 3 = initT 2 3 := by
  rcases h with ⟨hT, -⟩ | ⟨-, hz⟩
  · rw [hT]
  · exact hz

lemma multiScaleIcpPointToPlane_ok (hlaws : YawLaws lib num) (hinit : Homogeneous initT)
    {src tgt normals : List (Vector3 ℝ)} {voxels : List ℝ}
    (h : multiScaleIcpPointToPlane lib num src tgt normals initT voxels = .ok r) :
    PlanarOrSkipped initT r := by
  refine foldlM_ok (P := PlanarOrSkipped initT) ?_ (Or.inl ⟨rfl, by simp⟩) h
  intro best v best' hbest hscale
  simp only [icpScale] at hscale
  split_ifs at hscale with hv
  · cases hscale
    exact hbest
  · obtain ⟨srcDs, -, hscale⟩ := bind_eq_ok.mp hscale
    obtain ⟨tgtDown, -, hscale⟩ := bind_eq_ok.mp hscale
    split_ifs at hscale with hfew
    · cases hscale
      exact hbest
    · obtain ⟨hplanar, hz⟩ := icpPointToPlane_ok hlaws (hbest.homogeneous hinit) hscale
      exact Or.inr ⟨hplanar, hz.trans hbest.height⟩

lemma bestSeed_ok {near : Mat4 ℝ → Bool} {run : ℝ → Except PyError (IcpResult ℝ)}
    (hrun : ∀ yaw r, run yaw = .ok r → Planar r.T) (h : bestSeed num hint near run = .ok r) :
    (r.T = hint ∧ r.fitness = -1) ∨ Planar r.T := by
  refine foldlM_ok (P := fun r => (r.T = hint ∧ r.fitness = -1) ∨ Planar r.T) ?_
    (Or.inl ⟨rfl, by simp⟩) h
  intro best yaw best' hbest hseed
  obtain ⟨r, hr, hseed⟩ := bind_eq_ok.mp hseed
  cases hseed
  split_ifs
  · exact Or.inr (hrun _ _ hr)
  · exact hbest

/-! ### The choice of the node -/

/-- In three dimensions the tracking result is planar and as high as the prior, or it has the
fitness `-1`. -/
lemma runTrackIcp_ok (hlaws : YawLaws lib num) (h3d : icfg.use3dIcp = true)
    (hinit : Homogeneous initT) {scan : List (Vector3 ℝ)}
    (h : runTrackIcp lib num cfg icfg m scan initT = .ok r) : PlanarOrSkipped initT r := by
  simp only [runTrackIcp, h3d, Bool.not_true, Bool.false_eq_true, if_false] at h
  split_ifs at h with hmulti
  · exact multiScaleIcpPointToPlane_ok hlaws hinit h
  · exact Or.inr (icpPointToPlane_ok hlaws hinit h)

/-- What RANSAC returns is a transform. -/
def RansacLaw (ransac : Ransac ℝ) : Prop :=
  ∀ src tgt srcFpfh tgtFpfh d, Homogeneous (ransac src tgt srcFpfh tgtFpfh d).T

lemma multiScaleGlobalIcp_ok (hlaws : YawLaws lib num) (hhint : Homogeneous hint)
    {scan : List (Vector3 ℝ)} (h : multiScaleGlobalIcp lib num cfg icfg m scan hint = .ok r) :
    r.fitness = -1 ∨ Planar r.T := by
  obtain ⟨coarseV, -, h⟩ := bind_eq_ok.mp h
  obtain ⟨srcCoarse, -, h⟩ := bind_eq_ok.mp h
  obtain ⟨tgtCoarse, -, h⟩ := bind_eq_ok.mp h
  obtain ⟨best, hbest, h⟩ := bind_eq_ok.mp h
  have hhom : Homogeneous best.T := by
    rcases bestSeed_ok (fun yaw r hr =>
      (icpPointToPlane_ok hlaws (homogeneous_seedInit hhint) hr).1) hbest with ⟨hT, -⟩ | hT
    · rwa [hT]
    · exact hT.homogeneous
  exact (multiScaleIcpPointToPlane_ok hlaws hhom h).imp And.right And.left

/-- In three dimensions the result of the search is planar, or it has the fitness `-1`. -/
lemma runGlobalIcp_ok (hlaws : YawLaws lib num) (h3d : icfg.use3dIcp = true)
    {ransac : Ransac ℝ} (hransac : RansacLaw ransac) (hhint : Homogeneous hint)
    {scan : List (Vector3 ℝ)}
    (h : runGlobalIcp lib num cfg icfg mapData ransac m scan hint = .ok r) :
    r.fitness = -1 ∨ Planar r.T := by
  simp only [runGlobalIcp, h3d, Bool.not_true, Bool.false_eq_true, if_false] at h
  cases htarget : tgtFpfh cfg icfg mapData with
  | some target =>
    rw [htarget] at h
    obtain ⟨normals, -, h⟩ := bind_eq_ok.mp h
    exact Or.inr (icpPointToPlane_ok hlaws (hransac _ _ _ _ _) h).1
  | none =>
    rw [htarget] at h
    simp only at h
    split_ifs at h with hmulti
    · exact multiScaleGlobalIcp_ok hlaws hhint h
    · exact (bestSeed_ok (fun yaw r hr =>
        (icpPointToPlane_ok hlaws (homogeneous_seedInit hhint) hr).1) h).imp_left And.right

end Localizer
