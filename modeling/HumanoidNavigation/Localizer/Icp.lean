import HumanoidNavigation.Localizer.Node
import HumanoidNavigation.Numeric.Array

/-!
# Registration

The ICP functions of `localizer.py` and the two functions of the node that choose among them. What
they call of `numpy`, `scipy` and `open3d` are the fields of `Numerics`, next to `ThirdParty`.
Points are arrays of coordinates here, so that the loops of `icp` and `icp_2d` are one function.
-/

namespace Localizer

open PyFloat Ros NpArray

variable {F : Type} [PyFloat F] {n : ℕ}

/-- Functions of libraries that registration calls. -/
structure Numerics (F : Type) where
  /-- `float("inf")` -/
  inf : F
  /-- `np.linalg.svd`: `U`, `S` and `Vt` -/
  svd : {n : ℕ} → Matrix (Fin n) (Fin n) F →
    Matrix (Fin n) (Fin n) F × (Fin n → F) × Matrix (Fin n) (Fin n) F
  /-- what `tree.query(point, k=1)` returns, the distance and the index, with `none` for the
  infinite distance of a tree without points -/
  nearest : {n : ℕ} → KdTree (Fin n → F) → (Fin n → F) → Option (F × ℕ)
  /-- the first value of `np.linalg.lstsq(A, b)` -/
  lstsq : List (Fin 3 → F) → List F → Except PyError (Fin 3 → F)
  /-- `Rotation.from_euler("z", yaw, degrees=True).as_matrix()` -/
  fromYawDeg : F → Mat3 F
  /-- `Rotation.from_rotvec(v).as_matrix()` -/
  fromRotvec : Vector3 F → Mat3 F
  /-- `PointCloud.voxel_down_sample` of a cloud with normals -/
  voxelDownSampleNormals : List (Vector3 F × Vector3 F) → F →
    Except PyError (List (Vector3 F × Vector3 F))

/-- The parameters of the node that choose the registration, with the defaults of the source. -/
structure IcpConfig (F : Type) [PyFloat F] where
  use3dIcp : Bool := true
  useFpfhRansac : Bool := true
  useMultiScaleIcp : Bool := true
  multiScaleVoxels : List F := [lit 0.6, lit 0.4, lit 0.2]
  trackMultiScaleVoxels : List F := [lit 0.3, lit 0.15]

/-- The default of `iterations` -/
def defaultIterations : ℕ := 30

/-- A row of an array of points -/
def coords (p : Vector3 F) : Fin 3 → F := ![p.x, p.y, p.z]

/-- A row of `pts[:, :2]` -/
def coords2d (p : F × F) : Fin 2 → F := ![p.1, p.2]

/-! ### Correspondences -/

/-- The nearest point of the tree, when it is closer than `max_dist`. -/
def correspondence (lib : Numerics F) (tree : KdTree (Fin n → F)) (maxDist : F) (p : Fin n → F) :
    Option (F × ℕ) :=
  (lib.nearest tree p).filter fun m => lt m.1 maxDist

/-- `src_t[mask]`, with `idxs[mask]` -/
def masked (lib : Numerics F) (tree : KdTree (Fin n → F)) (maxDist : F)
    (srcT : List (Fin n → F)) : List ((Fin n → F) × ℕ) :=
  srcT.filterMap fun p => (correspondence lib tree maxDist p).map fun m => (p, m.2)

/-- `src_t[mask]`, with `a[idxs[mask]]` -/
def gather {α β : Type} (a : List α) (mask : List (β × ℕ)) : Except PyError (List (β × α)) :=
  mask.mapM fun m => match a[m.2]? with
    | some x => .ok (m.1, x)
    | none => .error .indexError

/-- The fitness and the RMSE that all ICP functions return. -/
def score (lib : Numerics F) (tree : KdTree (Fin n → F)) (maxDist : F) (src : List (Fin n → F))
    (T : Matrix (Fin (n + 1)) (Fin (n + 1)) F) : Except PyError (F × F) := do
  let dists := (transformPts src T).filterMap fun p =>
    (correspondence lib tree maxDist p).map Prod.fst
  let fitness ← div (lit dists.length) (lit (max src.length 1 : ℕ))
  let rmse := if 0 < dists.length
    then npSqrt (npDiv (sum (dists.map fun d => d * d)) (lit dists.length))
    else lib.inf
  return (fitness, rmse)

/-! ### Point to point -/

/-- `Vt[-1] *= -1` -/
def negateLastRow (Vt : Matrix (Fin (n + 1)) (Fin (n + 1)) F) :
    Matrix (Fin (n + 1)) (Fin (n + 1)) F :=
  Vt.updateRow (Fin.last n) fun j => Vt (Fin.last n) j * lit (-1)

/-- `R` of an iteration of `icp` -/
def bestRotation (lib : Numerics F) (H : Matrix (Fin (n + 1)) (Fin (n + 1)) F) :
    Matrix (Fin (n + 1)) (Fin (n + 1)) F :=
  let (U, _, Vt) := lib.svd H
  let R := matMul Vt.transpose U.transpose
  if lt (det R) (lit 0) then matMul (negateLastRow Vt).transpose U.transpose else R

/-- `H` of an iteration of `icp` -/
def covariance (pairs : List ((Fin n → F) × (Fin n → F))) : Matrix (Fin n) (Fin n) F :=
  let sc := mean (pairs.map Prod.fst)
  let tc := mean (pairs.map Prod.snd)
  fun i j => sum (pairs.map fun m => (m.1 i - sc i) * (m.2 j - tc j))

/-- `R` and `t` of an iteration of `icp` -/
def alignment (lib : Numerics F) (pairs : List ((Fin (n + 1) → F) × (Fin (n + 1) → F))) :
    Matrix (Fin (n + 1)) (Fin (n + 1)) F × (Fin (n + 1) → F) :=
  let R := bestRotation lib (covariance pairs)
  let sc := mean (pairs.map Prod.fst)
  let tc := mean (pairs.map Prod.snd)
  (R, fun i => tc i - matVec R sc i)

/-- `dT` of an iteration of `icp` -/
def increment (lib : Numerics F) (pairs : List ((Fin (n + 1) → F) × (Fin (n + 1) → F))) :
    Matrix (Fin (n + 1 + 1)) (Fin (n + 1 + 1)) F :=
  eyeWith (alignment lib pairs).1 (alignment lib pairs).2

/-- The body of the loop of `icp` and of `icp_2d`, `none` at the `break`. -/
def icpIteration (lib : Numerics F) (tree : KdTree (Fin (n + 1) → F)) (tgt : List (Fin (n + 1) → F))
    (src : List (Fin (n + 1) → F)) (maxDist : F)
    (T : Matrix (Fin (n + 1 + 1)) (Fin (n + 1 + 1)) F) :
    Except PyError (Option (Matrix (Fin (n + 1 + 1)) (Fin (n + 1 + 1)) F)) :=
  let mask := masked lib tree maxDist (transformPts src T)
  if mask.length < 20 then return none
  else do
    let pairs ← gather tgt mask
    return some (matMul (increment lib pairs) T)

/-- A loop of `iterations` steps, one of which may break it. -/
def iterate {α : Type} (step : α → Except PyError (Option α)) : ℕ → α → Except PyError α
  | 0, a => return a
  | k + 1, a => do
    match ← step a with
    | none => return a
    | some a' => iterate step k a'

/-- `b` is reached from `a` by `k` steps, or by fewer if the last one breaks. -/
inductive Iterates {α : Type} (step : α → Except PyError (Option α)) : ℕ → α → α → Prop where
  | zero (a : α) : Iterates step 0 a a
  | stop {k : ℕ} {a : α} (h : step a = .ok none) : Iterates step (k + 1) a a
  | next {k : ℕ} {a a' b : α} (h : step a = .ok (some a')) (hs : Iterates step k a' b) :
      Iterates step (k + 1) a b

lemma iterates_of_iterate {α : Type} {step : α → Except PyError (Option α)} {k : ℕ} {a b : α}
    (h : iterate step k a = .ok b) : Iterates step k a b := by
  induction k generalizing a with
  | zero =>
    cases h
    exact .zero _
  | succ k ih =>
    obtain ⟨o, ho, h⟩ := Except.bind_eq_ok.mp h
    cases o with
    | none =>
      cases h
      exact .stop ho
    | some a' => exact .next ho (ih h)

/-- What every step keeps holds at the end. -/
lemma iterate_invariant {α : Type} {step : α → Except PyError (Option α)} {P : α → Prop}
    (hstep : ∀ a a', P a → step a = .ok (some a') → P a') {k : ℕ} {a b : α} (ha : P a)
    (h : iterate step k a = .ok b) : P b := by
  induction k generalizing a with
  | zero =>
    cases h
    exact ha
  | succ k ih =>
    obtain ⟨o, ho, h⟩ := Except.bind_eq_ok.mp h
    cases o with
    | none =>
      cases h
      exact ha
    | some a' => exact ih (hstep a a' ha ho) h

lemma exists_iterate {α : Type} {step : α → Except PyError (Option α)}
    (hstep : ∀ a, ∃ o, step a = .ok o) (k : ℕ) (a : α) : ∃ b, iterate step k a = .ok b := by
  induction k generalizing a with
  | zero => exact ⟨a, rfl⟩
  | succ k ih =>
    obtain ⟨o, ho⟩ := hstep a
    cases o with
    | none => exact ⟨a, Except.bind_eq_ok.mpr ⟨none, ho, rfl⟩⟩
    | some a' =>
      obtain ⟨b, hb⟩ := ih a'
      exact ⟨b, Except.bind_eq_ok.mpr ⟨some a', ho, hb⟩⟩

/-- `icp` -/
def icp (lib : Numerics F) (srcPts : List (Vector3 F)) (tgtTree : KdTree (Vector3 F))
    (tgtPts : List (Vector3 F)) (initT : Mat4 F) (maxDist : F) (iterations : ℕ) :
    Except PyError (IcpResult F) := do
  let tree := ⟨tgtTree.points.map coords⟩
  let src := srcPts.map coords
  let T ← iterate (icpIteration lib tree (tgtPts.map coords) src maxDist) iterations initT
  let (fitness, rmse) ← score lib tree maxDist src T
  return ⟨T, fitness, rmse⟩

/-- `T2` of `icp_2d` -/
def planarPart (T : Mat4 F) : Mat3 F :=
  eyeWith (n := 2) (fun i j => T (i.castLE (by decide)) (j.castLE (by decide)))
    fun i => T (i.castLE (by decide)) 3

/-- `T4` of `icp_2d` -/
def ofPlanarPart (T2 : Mat3 F) (z : F) : Mat4 F :=
  !![T2 0 0, T2 0 1, lit 0, T2 0 2;
    T2 1 0, T2 1 1, lit 0, T2 1 2;
    lit 0, lit 0, lit 1, z;
    lit 0, lit 0, lit 0, lit 1]

/-- `icp_2d` -/
def icp2d (lib : Numerics F) (srcXy : List (F × F)) (tgtTree2d : KdTree (F × F))
    (tgtPts2d : List (F × F)) (initT : Mat4 F) (maxDist : F) (iterations : ℕ) :
    Except PyError (IcpResult F) := do
  let tree := ⟨tgtTree2d.points.map coords2d⟩
  let src := srcXy.map coords2d
  let T2 ← iterate (icpIteration lib tree (tgtPts2d.map coords2d) src maxDist) iterations
    (planarPart initT)
  let (fitness, rmse) ← score lib tree maxDist src T2
  return ⟨ofPlanarPart T2 (initT 2 3), fitness, rmse⟩

/-! ### Point to plane -/

/-- `T` with another `T[:3, :3]`. -/
def withRotation (T : Mat4 F) (R : Mat3 F) : Mat4 F :=
  !![R 0 0, R 0 1, R 0 2, T 0 3;
    R 1 0, R 1 1, R 1 2, T 1 3;
    R 2 0, R 2 1, R 2 2, T 2 3;
    T 3 0, T 3 1, T 3 2, T 3 3]

/-- `_project_yaw_only` -/
def projectYawOnly (lib : ThirdParty F) (T : Mat4 F) : Except PyError (Mat4 F) := do
  return withRotation T (lib.fromYaw (← lib.asEuler (rotation T) false).z)

/-- A row of `A`: yaw, `tx` and `ty` -/
def planeRow (p n : Fin 3 → F) : Fin 3 → F := ![p 0 * n 1 - p 1 * n 0, n 0, n 1]

/-- An entry of `b` -/
def planeResidual (p q n : Fin 3 → F) : F :=
  sum [(q 0 - p 0) * n 0, (q 1 - p 1) * n 1, (q 2 - p 2) * n 2]

/-- The body of the loop of `icp_point_to_plane`, `none` at the `break`. -/
def planeIteration (num : Numerics F) (tree : KdTree (Fin 3 → F)) (tgt : List (Fin 3 → F))
    (normals : List (Fin 3 → F)) (src : List (Fin 3 → F)) (maxDist : F) (T : Mat4 F) :
    Except PyError (Option (Mat4 F)) :=
  let mask := masked num tree maxDist (transformPts src T)
  if mask.length < 20 then return none
  else do
    let pairs ← gather (tgt.zip normals) mask
    let A := pairs.map fun m => planeRow m.1 m.2.2
    let b := pairs.map fun m => planeResidual m.1 m.2.1 m.2.2
    let x ← num.lstsq A b
    let dT := poseOf (num.fromRotvec ⟨lit 0, lit 0, x 0⟩) ⟨x 1, x 2, lit 0⟩
    return some (matMul dT T)

/-- `icp_point_to_plane` -/
def icpPointToPlane (lib : ThirdParty F) (num : Numerics F) (srcPts : List (Vector3 F))
    (tgtTree : KdTree (Vector3 F)) (tgtPts tgtNormals : List (Vector3 F)) (initT : Mat4 F)
    (maxDist : F) (iterations : ℕ) : Except PyError (IcpResult F) := do
  let tree := ⟨tgtTree.points.map coords⟩
  let src := srcPts.map coords
  let T ← iterate (planeIteration num tree (tgtPts.map coords) (tgtNormals.map coords) src maxDist)
    iterations (← projectYawOnly lib initT)
  let (fitness, rmse) ← score num tree maxDist src T
  return ⟨T, fitness, rmse⟩

/-- One scale of `multi_scale_icp_point_to_plane` -/
def icpScale (lib : ThirdParty F) (num : Numerics F) (srcPts tgtPts tgtNormals : List (Vector3 F))
    (best : IcpResult F) (v : F) : Except PyError (IcpResult F) :=
  if le v (lit 0) then return best
  else do
    let srcDs ← lib.voxelDownSample srcPts v
    let tgtDown ← num.voxelDownSampleNormals (tgtPts.zip tgtNormals) v
    if tgtDown.length < 20 ∨ srcDs.length < 20 then return best
    else
      let tp := tgtDown.map Prod.fst
      icpPointToPlane lib num srcDs ⟨tp⟩ tp (tgtDown.map Prod.snd) best.T (v * lit 2.5) 15

/-- `multi_scale_icp_point_to_plane` -/
def multiScaleIcpPointToPlane (lib : ThirdParty F) (num : Numerics F)
    (srcPts tgtPts tgtNormals : List (Vector3 F)) (initT : Mat4 F) (voxelSizes : List F) :
    Except PyError (IcpResult F) :=
  voxelSizes.foldlM (icpScale lib num srcPts tgtPts tgtNormals) ⟨initT, lit (-1), num.inf⟩

/-! ### Yaw seeds -/

/-- `range(0, 360, 5)` -/
def yawSeeds : List ℚ := (List.range 72).map fun k => (k : ℚ) * 5

/-- The loop over the yaw seeds: the best result that is near enough, the hint without one. -/
def bestSeed (num : Numerics F) (hint : Mat4 F) (near : Mat4 F → Bool)
    (run : F → Except PyError (IcpResult F)) : Except PyError (IcpResult F) :=
  yawSeeds.foldlM (fun best yaw => do
    let r ← run (lit yaw)
    return if near r.T && lt best.fitness r.fitness then r else best) ⟨hint, lit (-1), num.inf⟩

/-- `T_init` of a seed: the hint, turned about the centre of the scan -/
def seedInit (num : Numerics F) (srcPts : List (Vector3 F)) (hint : Mat4 F) (yaw : F) : Mat4 F :=
  let srcCentre := mean (transformPts (srcPts.map coords) hint)
  let yawR := num.fromYawDeg yaw
  matMul (eyeWith (n := 3) yawR fun i => srcCentre i - matVec yawR srcCentre i) hint

/-- `global_icp_point_to_plane` -/
def globalIcpPointToPlane (lib : ThirdParty F) (num : Numerics F) (srcPts : List (Vector3 F))
    (tgtTree : KdTree (Vector3 F)) (tgtPts tgtNormals : List (Vector3 F)) (hint : Mat4 F)
    (maxDist maxDriftFromHint : F) : Except PyError (IcpResult F) :=
  bestSeed num hint (fun T => !lt maxDriftFromHint (planarDist T hint)) fun yaw =>
    icpPointToPlane lib num srcPts tgtTree tgtPts tgtNormals (seedInit num srcPts hint yaw) maxDist
      defaultIterations

/-- `T_init` of a seed in the plane -/
def seedInit2d (num : Numerics F) (srcXy : List (F × F)) (hint : Mat4 F) (yaw : F) : Mat4 F :=
  let T2 := planarPart hint
  let srcCentre2d := mean (transformPts (srcXy.map coords2d) T2)
  let R2 : Matrix (Fin 2) (Fin 2) F := fun i j =>
    num.fromYawDeg yaw (i.castLE (by decide)) (j.castLE (by decide))
  let hintR : Matrix (Fin 2) (Fin 2) F := fun i j => T2 i.castSucc j.castSucc
  let M := matMul R2 hintR
  let t : Fin 2 → F := fun i => srcCentre2d i - matVec R2 srcCentre2d i +
    matVec R2 (fun j => T2 j.castSucc 2) i
  !![M 0 0, M 0 1, hint 0 2, t 0;
    M 1 0, M 1 1, hint 1 2, t 1;
    hint 2 0, hint 2 1, hint 2 2, hint 2 3;
    hint 3 0, hint 3 1, hint 3 2, hint 3 3]

/-- `global_icp_2d` -/
def globalIcp2d (num : Numerics F) (srcPts : List (Vector3 F)) (tgtTree2d : KdTree (F × F))
    (tgtPts2d : List (F × F)) (hint : Mat4 F) (maxDist : F) : Except PyError (IcpResult F) :=
  let srcXy := srcPts.map fun p => (p.x, p.y)
  bestSeed num hint (fun _ => true) fun yaw =>
    icp2d num srcXy tgtTree2d tgtPts2d (seedInit2d num srcXy hint yaw) maxDist defaultIterations

/-! ### FPFH and RANSAC -/

/-- `o3d.geometry.PointCloud`, with normals -/
structure PointCloud (F : Type) where
  points : List (Vector3 F)
  normals : List (Vector3 F)

/-- `compute_fpfh_feature` of a cloud, with a hybrid search of at most 100 neighbours -/
structure Fpfh (F : Type) where
  pcd : PointCloud F
  radius : F

/-- What a call of `registration_ransac_based_on_feature_matching` returns, which is random, for
the clouds, their features and `max_correspondence_distance`. -/
abbrev Ransac (F : Type) := PointCloud F → PointCloud F → Fpfh F → Fpfh F → F → IcpResult F

/-- `fpfh_ransac_global` -/
def fpfhRansacGlobal (ransac : Ransac F) (srcPts srcNormals : List (Vector3 F)) (tgtFpfh : Fpfh F)
    (featureRadius distanceThreshold : F) : IcpResult F :=
  let srcPcd := ⟨srcPts, srcNormals⟩
  ransac srcPcd tgtFpfh.pcd ⟨srcPcd, featureRadius⟩ tgtFpfh distanceThreshold

/-- `_tgt_fpfh`, of the first target -/
def tgtFpfh (cfg : Config F) (icfg : IcpConfig F) (mapData : MapData F) : Option (Fpfh F) :=
  if icfg.useFpfhRansac then
    some ⟨⟨mapData.localMap.tgtPts, mapData.localMap.tgtNormals⟩, cfg.voxelMap * lit 5⟩
  else none

/-! ### The choice of the node -/

/-- `max(voxels)` -/
def maxVoxel : List F → Except PyError F
  | [] => .error .valueError
  | v :: vs => .ok (vs.foldl (fun m x => if lt m x then x else m) v)

/-- The multi-scale branch of `_run_global_icp` -/
def multiScaleGlobalIcp (lib : ThirdParty F) (num : Numerics F) (cfg : Config F)
    (icfg : IcpConfig F) (m : LocalMap F) (scan : List (Vector3 F)) (hint : Mat4 F) :
    Except PyError (IcpResult F) := do
  let coarseV ← maxVoxel icfg.multiScaleVoxels
  let srcCoarse ← lib.voxelDownSample scan coarseV
  let tgtCoarse ← num.voxelDownSampleNormals (m.tgtPts.zip m.tgtNormals) coarseV
  let tp := tgtCoarse.map Prod.fst
  let best ← bestSeed num hint (fun T => !lt cfg.maxInitDistFromHint (planarDist T hint)) fun yaw =>
    icpPointToPlane lib num srcCoarse ⟨tp⟩ tp (tgtCoarse.map Prod.snd) (seedInit num scan hint yaw)
      (coarseV * lit 2.5) 15
  multiScaleIcpPointToPlane lib num scan m.tgtPts m.tgtNormals best.T icfg.multiScaleVoxels

/-- `_run_global_icp` -/
def runGlobalIcp (lib : ThirdParty F) (num : Numerics F) (cfg : Config F) (icfg : IcpConfig F)
    (mapData : MapData F) (ransac : Ransac F) (m : LocalMap F) (scan : List (Vector3 F))
    (hint : Mat4 F) : Except PyError (IcpResult F) :=
  if !icfg.use3dIcp then globalIcp2d num scan m.tgtTree2d m.tgtPts2d hint cfg.icpMaxDist
  else match tgtFpfh cfg icfg mapData with
    | some target => do
      let scanNormals ← estimateNormalsSafe lib scan (cfg.voxelScan * lit 2.5)
      let r := fpfhRansacGlobal ransac scan scanNormals target (cfg.voxelMap * lit 5)
        (cfg.icpMaxDist * lit 1.5)
      icpPointToPlane lib num scan m.tgtTree m.tgtPts m.tgtNormals r.T cfg.icpMaxDist
        defaultIterations
    | none =>
      if icfg.useMultiScaleIcp then multiScaleGlobalIcp lib num cfg icfg m scan hint
      else globalIcpPointToPlane lib num scan m.tgtTree m.tgtPts m.tgtNormals hint cfg.icpMaxDist
        cfg.maxInitDistFromHint

/-- `_run_track_icp` -/
def runTrackIcp (lib : ThirdParty F) (num : Numerics F) (cfg : Config F) (icfg : IcpConfig F)
    (m : LocalMap F) (scan : List (Vector3 F)) (initT : Mat4 F) : Except PyError (IcpResult F) :=
  if !icfg.use3dIcp then
    icp2d num (scan.map fun p => (p.x, p.y)) m.tgtTree2d m.tgtPts2d initT cfg.icpMaxDist
      defaultIterations
  else if icfg.useMultiScaleIcp then
    multiScaleIcpPointToPlane lib num scan m.tgtPts m.tgtNormals initT icfg.trackMultiScaleVoxels
  else
    icpPointToPlane lib num scan m.tgtTree m.tgtPts m.tgtNormals initT cfg.icpMaxDist
      defaultIterations

/-! ### Exact arithmetic -/

section Real

attribute [local instance] PyFloat.real

lemma poseOf_eq (R : Mat3 ℝ) (t : Vector3 ℝ) : poseOf R t = Rotation.affine R (coords t) := by
  ext i j
  fin_cases i <;> fin_cases j <;> simp [poseOf, coords, Rotation.affine, Fin.snoc] <;> rfl

end Real

end Localizer
