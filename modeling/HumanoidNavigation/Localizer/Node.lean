import HumanoidNavigation.Ros.Messages

/-!
# The localizer

`Node` is the state of `LocalizerNode` in `localizer.py`. The functions of `scipy`, `open3d` and
`numpy` that are not elementary are the fields of `ThirdParty`. The ICP calls are left open: what
they return is an input of the tick. A function whose callees can raise returns an `Except`; an
exception ends the node.

`_first_localize` and `_track` log how they ended; the model returns it as an `Outcome`.
-/

namespace Localizer

open PyFloat Ros

/-- `cKDTree(points)` -/
structure KdTree (α : Type) where
  points : List α

/-- Functions of libraries. -/
structure ThirdParty (F : Type) where
  /-- `np.quantile` -/
  quantile : List F → F → Except PyError F
  /-- `PointCloud.voxel_down_sample` -/
  voxelDownSample : List (Vector3 F) → F → Except PyError (List (Vector3 F))
  /-- `PointCloud.estimate_normals` with a hybrid search of at most 30 neighbours -/
  estimateNormals : List (Vector3 F) → F → Except PyError (List (Vector3 F))
  /-- the distance that `tree.query(point, k=1)` returns -/
  query : KdTree (Vector3 F) → Vector3 F → F
  /-- `Rotation.from_matrix(m).as_euler("xyz", degrees)` -/
  asEuler : Mat3 F → Bool → Except PyError (Vector3 F)
  /-- `Rotation.from_euler("z", yaw).as_matrix()` -/
  fromYaw : F → Mat3 F
  /-- `Rotation.from_euler("xyz", angles, degrees=True).as_matrix()` -/
  fromEulerDeg : Vector3 F → Mat3 F
  /-- `Rotation.from_matrix(m).as_quat()` -/
  asQuat : Mat3 F → Except PyError (Quaternion F)
  /-- `Rotation.from_quat(q).as_matrix()` -/
  fromQuat : Quaternion F → Except PyError (Mat3 F)
  /-- `Slerp([0, 1], [r_old, r_new])(alpha).as_matrix()` -/
  slerp : Mat3 F → Mat3 F → F → Except PyError (Mat3 F)
  /-- `np.deg2rad` -/
  deg2rad : F → F

variable {F : Type} [PyFloat F]

/-- The parameters of the node, with the defaults of the source. -/
structure Config (F : Type) [PyFloat F] where
  mapFrame : String := "map"
  odomFrame : String := "world"
  voxelMap : F := lit 0.2
  voxelScan : F := lit 0.3
  icpMaxDist : F := lit 0.5
  minFitness : F := lit 0.7
  minFitnessReloc : F := lit 0.6
  maxDposePerTick : F := lit 1
  maxRmse : F := lit 0.15
  relocalizeAfterNLosses : ℤ := 3
  maxCeilingAboveFloor : F := lit 2.5
  useKalman : Bool := true
  kalmanProcessVar : F := lit 0.001
  kalmanMeasVar : F := lit 0.02
  disUpdatemap : F := lit 3.5
  localMapRadius : F := lit 6
  confidenceTh : F := lit 0.7
  maxRollPitchDeg : F := lit 10
  maxInitDistFromHint : F := lit 3
  maxRecoveryDriftFromPrior : F := lit 1
  maxMapDriftRate : F := lit 0.15
  driftRateSpeedGain : F := lit 0.3
  jumpFitnessMargin : F := lit 0.08
  locPeriod : F := lit 1
  freezeAfterInit : Bool := false
  /-- `initial_pose`: a position, and angles in degrees -/
  initialPosition : Vector3 F := ⟨lit 0, lit 0, lit 0⟩
  initialAngles : Vector3 F := ⟨lit 0, lit 0, lit 0⟩

/-- `_tf_smooth_alpha` -/
def tfSmoothAlpha : F := lit 0.3

/-- `_settle_ticks_after_lock` -/
def settleTicksAfterLock : ℕ := 10

/-- `np.pi` -/
def pi : F := lit (884279719003555 / 281474976710656)

/-! ### Poses -/

/-- `T[:3, :3]` -/
def rotation (T : Mat4 F) : Mat3 F := fun i j => T i.castSucc j.castSucc

/-- `np.eye(4)` with `T[:3, :3] = R` and `T[:3, 3] = t` -/
def poseOf (R : Mat3 F) (t : Vector3 F) : Mat4 F :=
  !![R 0 0, R 0 1, R 0 2, t.x;
    R 1 0, R 1 1, R 1 2, t.y;
    R 2 0, R 2 1, R 2 2, t.z;
    lit 0, lit 0, lit 0, lit 1]

/-- `T` with another `T[2, 3]`. -/
def withZ (T : Mat4 F) (z : F) : Mat4 F := fun i j => if i = 2 ∧ j = 3 then z else T i j

/-- `np.linalg.norm` of a difference of points in the plane. -/
def planarNorm (dx dy : F) : F := npSqrt (dx * dx + dy * dy)

/-- `np.linalg.norm(T[:2, 3] - S[:2, 3])` -/
def planarDist (T S : Mat4 F) : F := planarNorm (T 0 3 - S 0 3) (T 1 3 - S 1 3)

/-- `hint_to_matrix`, of the parameter `initial_pose` -/
def hintToMatrix (lib : ThirdParty F) (cfg : Config F) : Mat4 F :=
  poseOf (lib.fromEulerDeg cfg.initialAngles) cfg.initialPosition

/-- The transform of `matrix_to_ros_tf`. -/
def toTransform (lib : ThirdParty F) (T : Mat4 F) : Except PyError (Transform F) := do
  return ⟨⟨T 0 3, T 1 3, T 2 3⟩, ← lib.asQuat (rotation T)⟩

/-- `matrix_to_ros_tf` -/
def matrixToRosTf (lib : ThirdParty F) (T : Mat4 F) (stamp : Stamp) (parent child : String) :
    Except PyError (TransformStamped F) := do
  return ⟨stamp, parent, child, ← toTransform lib T⟩

/-- `wrap` in `_roll_pitch_deg` -/
def wrap (a : F) : F := mod (a + lit 180) (lit 360) - lit 180

/-- `_roll_pitch_deg` -/
def rollPitchDeg (lib : ThirdParty F) (T : Mat4 F) : Except PyError (F × F) := do
  let rpy ← lib.asEuler (rotation T) true
  return (abs (wrap rpy.x), abs (wrap rpy.y))

/-- Roll and pitch are within `max_roll_pitch_deg`. -/
def goodAttitude (lib : ThirdParty F) (cfg : Config F) (T : Mat4 F) : Except PyError Bool := do
  let (rollDeg, pitchDeg) ← rollPitchDeg lib T
  return le rollDeg cfg.maxRollPitchDeg && le pitchDeg cfg.maxRollPitchDeg

/-- The yaw that the filters work with. -/
def yawOf (lib : ThirdParty F) (T : Mat4 F) : Except PyError F := do
  return (← lib.asEuler (rotation T) false).z

/-! ### Pose filter -/

/-- `KalmanScalar` -/
structure KalmanScalar (F : Type) where
  x : F
  P : F
  Q : F
  R : F

namespace KalmanScalar

/-- `KalmanScalar.__init__` -/
def init (processVar measVar x₀ : F) : KalmanScalar F := ⟨x₀, lit 1, processVar, measVar⟩

/-- `KalmanScalar.reset` -/
def reset (k : KalmanScalar F) (x₀ : F) : KalmanScalar F := { k with x := x₀, P := lit 1 }

/-- `KalmanScalar.step` -/
def step (k : KalmanScalar F) (z : F) : Except PyError (KalmanScalar F) := do
  let P := k.P + k.Q
  let K ← div P (P + k.R)
  return { k with x := k.x + K * (z - k.x), P := (lit 1 - K) * P }

end KalmanScalar

/-- The published pose and the four Kalman filters. -/
structure PoseFilter (F : Type) where
  tPublished : Mat4 F
  kfX : KalmanScalar F
  kfY : KalmanScalar F
  kfZ : KalmanScalar F
  kfYaw : KalmanScalar F

namespace PoseFilter

/-- `_smooth_tf`, together with the assignment to `_T_published` -/
def smoothTf (lib : ThirdParty F) (cfg : Config F) (f : PoseFilter F) (tNew : Mat4 F) :
    Except PyError (PoseFilter F) :=
  if cfg.useKalman then do
    let newYaw ← yawOf lib tNew
    let twoPi := lit 2 * pi
    let delta := mod (newYaw - f.kfYaw.x + pi) twoPi - pi
    let kfX ← f.kfX.step (tNew 0 3)
    let kfY ← f.kfY.step (tNew 1 3)
    let kfZ ← f.kfZ.step (tNew 2 3)
    let kfYaw ← f.kfYaw.step (f.kfYaw.x + delta)
    return ⟨poseOf (lib.fromYaw kfYaw.x) ⟨kfX.x, kfY.x, kfZ.x⟩, kfX, kfY, kfZ, kfYaw⟩
  else do
    let ema (i : Fin 4) : F :=
      tfSmoothAlpha * tNew i 3 + (lit 1 - tfSmoothAlpha) * f.tPublished i 3
    let rSmooth ← lib.slerp (rotation f.tPublished) (rotation tNew) tfSmoothAlpha
    return { f with tPublished := poseOf rSmooth ⟨ema 0, ema 1, tNew 2 3⟩ }

/-- `_seed_kalmans_from_T` -/
def seedKalmansFromT (lib : ThirdParty F) (f : PoseFilter F) (T : Mat4 F) :
    Except PyError (PoseFilter F) := do
  let yaw ← yawOf lib T
  return { f with
    kfX := f.kfX.reset (T 0 3)
    kfY := f.kfY.reset (T 1 3)
    kfZ := f.kfZ.reset (T 2 3)
    kfYaw := f.kfYaw.reset yaw }

end PoseFilter

/-! ### Local map -/

/-- The subset of the map that ICP runs against. -/
structure LocalMap (F : Type) where
  tgtPts : List (Vector3 F)
  tgtTree : KdTree (Vector3 F)
  tgtPts2d : List (F × F)
  tgtTree2d : KdTree (F × F)
  tgtNormals : List (Vector3 F)
  localMapCentre : Option (F × F)

/-- `estimate_normals_safe` -/
def estimateNormalsSafe (lib : ThirdParty F) (pts : List (Vector3 F)) (radius : F) :
    Except PyError (List (Vector3 F)) := do
  let normals ← lib.estimateNormals pts radius
  return normals.map fun v =>
    if lt v.z (lit 0) then ⟨v.x * lit (-1), v.y * lit (-1), v.z * lit (-1)⟩ else v

/-- `_rebuild_local_map`, on the full map `full` -/
def LocalMap.rebuild (lib : ThirdParty F) (cfg : Config F) (full : List (Vector3 F))
    (m : LocalMap F) (x y : F) : Except PyError (LocalMap F) :=
  let subset := full.filter fun p => lt (planarNorm (p.x - x) (p.y - y)) cfg.localMapRadius
  if subset.length < 200 then
    return m
  else do
    let icpPts := subset.filter fun p => le (lit (-0.3)) p.z && le p.z (lit 5)
    let tgtPts ← lib.voxelDownSample icpPts cfg.voxelMap
    let tgtXy := tgtPts.map fun p => (p.x, p.y)
    let normals ← estimateNormalsSafe lib tgtPts (cfg.voxelMap * lit 2.5)
    return ⟨tgtPts, ⟨tgtPts⟩, tgtXy, ⟨tgtXy⟩, normals, some (x, y)⟩

/-! ### The node -/

/-- What the node has loaded from its map file. -/
structure MapData (F : Type) where
  /-- the whole map, gravity-aligned -/
  full : List (Vector3 F)
  display : List (Vector3 F)
  localMap : LocalMap F

structure Node (F : Type) where
  tMapCam : Mat4 F
  filter : PoseFilter F
  localMap : LocalMap F
  initialized : Bool := false
  latestCloud : Option (List (Vector3 F)) := none
  latestStamp : Option Stamp := none
  camToWorldR : Option (Mat3 F) := none
  floorZWorld : F
  lostCount : ℕ := 0
  robotSpeed : F
  /-- `_last_odom_pos` and `_last_odom_t`, which are written together -/
  lastOdom : Option (Vector3 F × F) := none
  settleTicks : ℕ := 0
  mapPublished : Bool := false
  frozenStaticPublished : Bool := false

/-- What an ICP call returns. -/
structure IcpResult (F : Type) where
  T : Mat4 F
  fitness : F
  rmse : F

/-- How `_first_localize` or `_track` ended, with the candidate it is about. -/
inductive Outcome (F : Type) where
  | idle
  /-- "Initial localization weak" -/
  | weak (T : Mat4 F)
  /-- "Initial localization OK" -/
  | locked (T : Mat4 F)
  /-- "ICP track" -/
  | tracked (T : Mat4 F)
  /-- "Re-localized" -/
  | relocalized (T : Mat4 F)
  /-- "keeping last pose" -/
  | held

inductive Publication (F : Type) where
  | mapCloud (pts : List (Vector3 F))
  | filteredScan (pts : List (Vector3 F))
  | tf (ts : TransformStamped F)
  | staticTf (ts : TransformStamped F)

/-- The inputs of one timer tick: the clock, the rotation of the transform from `camera_init` to
`world` if there is one, and what the ICP calls would return. -/
structure Tick (F : Type) where
  clock : Stamp
  gravityTf : Option (Quaternion F)
  trackIcp : Except PyError (IcpResult F)
  globalIcp : Except PyError (IcpResult F)

namespace Node

/-- The end of `LocalizerNode.__init__` -/
def init (lib : ThirdParty F) (cfg : Config F) (mapData : MapData F) : Node F where
  tMapCam := hintToMatrix lib cfg
  filter :=
    { tPublished := hintToMatrix lib cfg
      kfX := .init cfg.kalmanProcessVar cfg.kalmanMeasVar cfg.initialPosition.x
      kfY := .init cfg.kalmanProcessVar cfg.kalmanMeasVar cfg.initialPosition.y
      kfZ := .init cfg.kalmanProcessVar cfg.kalmanMeasVar cfg.initialPosition.z
      kfYaw := .init cfg.kalmanProcessVar cfg.kalmanMeasVar (lib.deg2rad cfg.initialAngles.z) }
  localMap := mapData.localMap
  floorZWorld := lit 0
  robotSpeed := lit 0

/-- `_cloud_cb` -/
def cloudCb (n : Node F) (cloud : List (Vector3 F)) (stamp : Stamp) : Node F :=
  { n with latestCloud := some cloud, latestStamp := some stamp }

/-- `_odom_cb` -/
def odomCb (n : Node F) (pos : Vector3 F) (stamp : Stamp) : Node F :=
  let t := lit stamp.sec + lit stamp.nanosec * lit (1 / 10 ^ 9)
  let speed := match n.lastOdom with
    | none => n.robotSpeed
    | some (lastPos, lastT) =>
      let dt := t - lastT
      if lt (lit 0.001) dt then
        let dx := pos.x - lastPos.x
        let dy := pos.y - lastPos.y
        let dz := pos.z - lastPos.z
        npDiv (npSqrt (dx * dx + dy * dy + dz * dz)) dt
      else n.robotSpeed
  { n with robotSpeed := speed, lastOdom := some (pos, t) }

/-- `_eval_fitness` -/
def evalFitness (lib : ThirdParty F) (cfg : Config F) (n : Node F) (scan : List (Vector3 F))
    (T : Mat4 F) : Except PyError F :=
  let inliers := scan.countP fun p =>
    lt (lib.query n.localMap.tgtTree (applyPoint T p)) cfg.icpMaxDist
  div (lit inliers) (lit (max scan.length 1 : ℕ))

/-- `_with_floor_z` -/
def withFloorZ (n : Node F) (T : Mat4 F) : Mat4 F := withZ T (-n.floorZWorld)

/-- `_publish_tf` -/
def publishTf (lib : ThirdParty F) (cfg : Config F) (n : Node F) (clock : Stamp) :
    Except PyError (TransformStamped F) :=
  matrixToRosTf lib n.filter.tPublished (n.latestStamp.getD clock) cfg.mapFrame cfg.odomFrame

/-- What a lock does, be it the first one or a re-localization: the candidate becomes the pose,
the filters are seeded, the settle ticks start and the local map is rebuilt. -/
def lock (lib : ThirdParty F) (cfg : Config F) (full : List (Vector3 F)) (n : Node F)
    (T : Mat4 F) : Except PyError (Node F) := do
  let tPub := n.withFloorZ T
  let filter ← n.filter.seedKalmansFromT lib tPub
  let localMap ← n.localMap.rebuild lib cfg full (tPub 0 3) (tPub 1 3)
  return { n with
    tMapCam := T
    filter := { filter with tPublished := tPub }
    settleTicks := settleTicksAfterLock
    localMap := localMap }

/-! ### First localization -/

/-- The gates of `_first_localize` -/
def firstGates (lib : ThirdParty F) (cfg : Config F) (g : IcpResult F) : Except PyError Bool := do
  let attitude ← goodAttitude lib cfg g.T
  let distFromHint :=
    planarNorm (g.T 0 3 - cfg.initialPosition.x) (g.T 1 3 - cfg.initialPosition.y)
  let nearHint := le distFromHint cfg.maxInitDistFromHint
  return le cfg.minFitnessReloc g.fitness && attitude && nearHint

/-- `_first_localize`, up to the call of `_publish_tf` -/
def firstLocalize (lib : ThirdParty F) (cfg : Config F) (full : List (Vector3 F)) (n : Node F)
    (scan : List (Vector3 F)) (globalIcp : Except PyError (IcpResult F)) :
    Except PyError (Node F × Outcome F) := do
  let floorZ ← lib.quantile (scan.map (·.z)) (lit 0.05)
  let n := { n with floorZWorld := floorZ }
  let g ← globalIcp
  if ← firstGates lib cfg g then
    return ({ ← n.lock lib cfg full g.T with initialized := true }, .locked g.T)
  else
    return ({ n with filter := { n.filter with tPublished := n.withFloorZ g.T } }, .weak g.T)

/-! ### Tracking -/

/-- `drift_budget` -/
def driftBudget (cfg : Config F) (n : Node F) : F :=
  (cfg.maxMapDriftRate + n.robotSpeed * cfg.driftRateSpeedGain) * cfg.locPeriod

/-- `effective_budget`: the loose ceiling while the pose settles after a lock -/
def effectiveBudget (cfg : Config F) (n : Node F) : F :=
  if 0 < n.settleTicks then cfg.maxDposePerTick else n.driftBudget cfg

/-- `justified`: past the budget and below the ceiling, the candidate is decisively better than the
prior pose. -/
def justified (lib : ThirdParty F) (cfg : Config F) (n : Node F) (scan : List (Vector3 F))
    (c : IcpResult F) : Except PyError Bool :=
  let dxy := planarDist c.T n.tMapCam
  if !le dxy (n.effectiveBudget cfg) && le dxy cfg.maxDposePerTick then do
    let prior ← n.evalFitness lib cfg scan n.tMapCam
    return le (prior + cfg.jumpFitnessMargin) c.fitness
  else
    return false

/-- The gates for a tracking candidate -/
def trackGates (lib : ThirdParty F) (cfg : Config F) (n : Node F) (scan : List (Vector3 F))
    (c : IcpResult F) : Except PyError Bool := do
  let dxy := planarDist c.T n.tMapCam
  let attitude ← goodAttitude lib cfg c.T
  let justified ← n.justified lib cfg scan c
  return le cfg.minFitness c.fitness && le c.rmse cfg.maxRmse && le dxy cfg.maxDposePerTick &&
    (le dxy (n.effectiveBudget cfg) || justified) && attitude

/-- The gates for a re-localization candidate -/
def recoveryGates (lib : ThirdParty F) (cfg : Config F) (n : Node F) (g : IcpResult F) :
    Except PyError Bool := do
  let attitude ← goodAttitude lib cfg g.T
  let nearPrior := le (planarDist g.T n.tMapCam) cfg.maxRecoveryDriftFromPrior
  return le cfg.minFitnessReloc g.fitness && le g.rmse cfg.maxRmse && attitude && nearPrior

/-- The confidence gate: only a confident candidate is smoothed into the published pose. -/
def smoothConfident (lib : ThirdParty F) (cfg : Config F) (n : Node F) (c : IcpResult F) :
    Except PyError (PoseFilter F) :=
  if le cfg.confidenceTh c.fitness then n.filter.smoothTf lib cfg (n.withFloorZ c.T)
  else return n.filter

/-- The local map is rebuilt when the pose has moved `dis_updatemap` away from its centre. -/
def updateLocalMap (lib : ThirdParty F) (cfg : Config F) (full : List (Vector3 F)) (n : Node F)
    (x y : F) : Except PyError (LocalMap F) :=
  let moved := match n.localMap.localMapCentre with
    | none => true
    | some (cx, cy) => lt cfg.disUpdatemap (planarNorm (x - cx) (y - cy))
  if moved then n.localMap.rebuild lib cfg full x y else return n.localMap

/-- `_track` when the tracking candidate is accepted -/
def acceptTrack (lib : ThirdParty F) (cfg : Config F) (full : List (Vector3 F)) (n : Node F)
    (c : IcpResult F) : Except PyError (Node F) := do
  let tPub := n.withFloorZ c.T
  let filter ← n.smoothConfident lib cfg c
  let localMap ← n.updateLocalMap lib cfg full (tPub 0 3) (tPub 1 3)
  return { n with tMapCam := c.T, filter := filter, lostCount := 0, localMap := localMap }

/-- `_track` when the tracking candidate is rejected -/
def rejectTrack (lib : ThirdParty F) (cfg : Config F) (full : List (Vector3 F)) (n : Node F)
    (globalIcp : Except PyError (IcpResult F)) : Except PyError (Node F × Outcome F) :=
  let n := { n with lostCount := n.lostCount + 1 }
  if cfg.relocalizeAfterNLosses ≤ n.lostCount then do
    let g ← globalIcp
    if ← n.recoveryGates lib cfg g then
      return ({ ← n.lock lib cfg full g.T with lostCount := 0 }, .relocalized g.T)
    else
      return (n, .held)
  else
    return (n, .held)

/-- `_track`, up to the call of `_publish_tf` -/
def track (lib : ThirdParty F) (cfg : Config F) (full : List (Vector3 F)) (n : Node F)
    (scan : List (Vector3 F)) (trackIcp globalIcp : Except PyError (IcpResult F)) :
    Except PyError (Node F × Outcome F) := do
  let c ← trackIcp
  let accept ← n.trackGates lib cfg scan c
  let n := { n with settleTicks := n.settleTicks - 1 }
  if accept then
    return (← n.acceptTrack lib cfg full c, .tracked c.T)
  else
    n.rejectTrack lib cfg full globalIcp

/-! ### The timer -/

/-- `_try_get_gravity_tf`, when there is no rotation yet -/
def tryGetGravityTf (lib : ThirdParty F) (n : Node F) (gravityTf : Option (Quaternion F)) :
    Node F :=
  match n.camToWorldR, gravityTf with
  | none, some q =>
    match lib.fromQuat q with
    | .ok R => { n with camToWorldR := some R }
    | .error _ => n
  | _, _ => n

/-- The scan of `_localize`: rotated, cut below the ceiling and downsampled, with the filtered
points that are published. -/
def prepareScan (lib : ThirdParty F) (cfg : Config F) (R : Mat3 F) (cloud : List (Vector3 F)) :
    Except PyError (List (Vector3 F) × List (Publication F)) := do
  let row (p : Vector3 F) (i : Fin 3) : F := R i 0 * p.x + R i 1 * p.y + R i 2 * p.z
  let pts := cloud.map fun p => (⟨row p 0, row p 1, row p 2⟩ : Vector3 F)
  let zFloorEst ← lib.quantile (pts.map (·.z)) (lit 0.05)
  let pts := pts.filter fun p => le p.z (zFloorEst + cfg.maxCeilingAboveFloor)
  let scan ← lib.voxelDownSample pts cfg.voxelScan
  return (scan, if pts.isEmpty then [] else [.filteredScan pts])

/-- The branch of `_localize` on `_initialized`. The log line before the first localization takes
the minimum of the scan, which raises for an empty one. -/
def firstLocalizeOrTrack (lib : ThirdParty F) (cfg : Config F) (full : List (Vector3 F))
    (n : Node F) (scan : List (Vector3 F)) (tick : Tick F) :
    Except PyError (Node F × Outcome F) :=
  if n.initialized then n.track lib cfg full scan tick.trackIcp tick.globalIcp
  else if scan.isEmpty then throw .valueError
  else n.firstLocalize lib cfg full scan tick.globalIcp

/-- `_localize`, from the scan on -/
def localizeScan (lib : ThirdParty F) (cfg : Config F) (full : List (Vector3 F)) (n : Node F)
    (scan : List (Vector3 F)) (tick : Tick F) :
    Except PyError (Node F × TransformStamped F × Outcome F) := do
  let (n, outcome) ← n.firstLocalizeOrTrack lib cfg full scan tick
  return (n, ← n.publishTf lib cfg tick.clock, outcome)

/-- `_localize`, after the map cloud and the gravity transform -/
def localizeCloud (lib : ThirdParty F) (cfg : Config F) (full : List (Vector3 F)) (n : Node F)
    (tick : Tick F) : Except PyError (Node F × List (Publication F) × Outcome F) :=
  match n.camToWorldR, n.latestCloud with
  | some R, some cloud =>
    if cloud.length < 200 then
      return (n, [], .idle)
    else do
      let (scan, filtered) ← prepareScan lib cfg R cloud
      let (n, ts, outcome) ← n.localizeScan lib cfg full scan tick
      return (n, filtered ++ [.tf ts], outcome)
  | _, _ => return (n, [], .idle)

/-- The latched map cloud of the first tick. -/
def mapPublication (mapData : MapData F) (n : Node F) : List (Publication F) :=
  if n.mapPublished then [] else [.mapCloud mapData.display]

/-- `_localize` -/
def localize (lib : ThirdParty F) (cfg : Config F) (mapData : MapData F) (n : Node F)
    (tick : Tick F) : Except PyError (Node F × List (Publication F) × Outcome F) :=
  if cfg.freezeAfterInit && n.initialized then
    if n.frozenStaticPublished then
      return (n, [], .idle)
    else do
      let ts ← matrixToRosTf lib n.filter.tPublished tick.clock cfg.mapFrame cfg.odomFrame
      return ({ n with frozenStaticPublished := true }, [.staticTf ts], .idle)
  else do
    let n' := { n with mapPublished := true }.tryGetGravityTf lib tick.gravityTf
    let (n', pubs, outcome) ← n'.localizeCloud lib cfg mapData.full tick
    return (n', n.mapPublication mapData ++ pubs, outcome)

end Node
end Localizer
