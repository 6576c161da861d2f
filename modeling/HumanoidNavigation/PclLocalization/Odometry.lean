import HumanoidNavigation.Numeric.CppFloat
import HumanoidNavigation.Ros.Messages

/-!
# Poses from absolute odometry

The policies of `lidar_localization_ros2` for odometry poses, for the prediction state and for the
transforms that are published. `F` is the type of the floating-point numbers and `M` that of
`Eigen::Matrix4f`; the operations of Eigen and of tf2 are the fields of a `Lib`.
-/

namespace PclLocalization

open CppFloat Ros

variable {F M : Type} [CppFloat F]

structure Pose (F : Type) where
  position : Vector3 F
  orientation : Quaternion F
  deriving DecidableEq

structure PoseStamped (F : Type) where
  stamp : Stamp
  frameId : String
  pose : Pose F
  deriving DecidableEq

structure PoseWithCovarianceStamped (F : Type) where
  stamp : Stamp
  frameId : String
  pose : Pose F
  covariance : List F
  deriving DecidableEq

/-- The operations of Eigen and of tf2. -/
structure Lib (F M : Type) where
  /-- `std::isfinite` -/
  isFinite : F → Bool
  /-- `static_cast<float>` -/
  toFloat : F → F
  norm : Quaternion F → F
  normalized : Quaternion F → Quaternion F
  /-- `a.slerp(t, b)` -/
  slerp : F → Quaternion F → Quaternion F → Quaternion F
  identity : M
  mul : M → M → M
  inverse : M → M
  allFinite : M → Bool
  /-- the quaternion of the upper left block -/
  rotation : M → Quaternion F
  /-- as `rotation`, of the block in double precision -/
  rotationDouble : M → Quaternion F
  translation : M → Vector3 F
  /-- the identity with a rotation and a translation written into it -/
  rigid : Quaternion F → Vector3 F → M
  /-- `tf2::fromMsg` to an affine transform, in single precision -/
  fromMsg : Pose F → M
  /-- `a * b.inverse()` of tf2 transforms -/
  mulInverse : Transform F → Transform F → Transform F

/-- `stamp_to_sec` -/
def stampToSec (stamp : Stamp) : F := lit stamp.sec + lit stamp.nanosec * lit (1 / 10 ^ 9)

variable (lib : Lib F M)

/-! ### The odometry history -/

structure TimedPoseMatrix (F M : Type) where
  stampSec : F
  poseMatrix : M

def finiteVector (v : Vector3 F) : Bool := lib.isFinite v.x && lib.isFinite v.y && lib.isFinite v.z

def finiteQuaternion (q : Quaternion F) : Bool :=
  lib.isFinite q.x && lib.isFinite q.y && lib.isFinite q.z && lib.isFinite q.w

/-- `isPoseFinite` -/
def isPoseFinite (pose : Pose F) : Bool :=
  finiteVector lib pose.position && finiteQuaternion lib pose.orientation

/-- `poseMatrixFromPose` -/
def poseMatrixFromPose (pose : Pose F) : Option M :=
  let translation : Vector3 F := ⟨lib.toFloat pose.position.x, lib.toFloat pose.position.y,
    lib.toFloat pose.position.z⟩
  let rotation : Quaternion F := ⟨lib.toFloat pose.orientation.x, lib.toFloat pose.orientation.y,
    lib.toFloat pose.orientation.z, lib.toFloat pose.orientation.w⟩
  if !finiteVector lib translation || !finiteQuaternion lib rotation ||
      lt (lib.norm rotation) (lit (1 / 10 ^ 6)) then
    none
  else
    let m := lib.rigid (lib.normalized rotation) translation
    if lib.allFinite m then some m else none

/-- `mapToOdomFromPoses` -/
def mapToOdomFromPoses (mapToBase odomToBase : M) : M := lib.mul mapToBase (lib.inverse odomToBase)

/-- `predictMapPoseFromAbsoluteOdom` of the policy -/
def predictMapPose (mapToOdom odomToBase : M) : M := lib.mul mapToOdom odomToBase

/-- `std::clamp` -/
def clamp (x lo hi : F) : F := if lt x lo then lo else if lt hi x then hi else x

/-- `blendRigidTransforms`. The gain is finite, so `g <= 0` and `g >= 1` are negations. -/
def blendRigidTransforms (current measured : M) (gain : F) : M :=
  let g := lib.toFloat (clamp gain (lit 0) (lit 1))
  if !lt (lit 0) g || !lib.allFinite measured then current
  else if !lt g (lit 1) || !lib.allFinite current then measured
  else
    let currentRotation := lib.rotation current
    let measuredRotation := lib.rotation measured
    if !finiteQuaternion lib currentRotation || !finiteQuaternion lib measuredRotation ||
        lt (lib.norm currentRotation) (lit (1 / 10 ^ 6)) ||
        lt (lib.norm measuredRotation) (lit (1 / 10 ^ 6)) then
      current
    else
      let a := lib.translation current
      let b := lib.translation measured
      lib.rigid
        (lib.normalized
          (lib.slerp g (lib.normalized currentRotation) (lib.normalized measuredRotation)))
        ⟨(lit 1 - g) * a.x + g * b.x, (lit 1 - g) * a.y + g * b.y, (lit 1 - g) * a.z + g * b.z⟩

/-- The loop of `nearestTimedPose`, over the history from its end. The distance to begin with is
infinite. -/
def nearestLoop (stampSec : F) : Option (TimedPoseMatrix F M × F) → List (TimedPoseMatrix F M) →
    Option (TimedPoseMatrix F M × F)
  | nearest, [] => nearest
  | nearest, it :: rest =>
    let delta := CppFloat.abs (it.stampSec - stampSec)
    let nearest := match nearest with
      | none => if lib.isFinite delta then some (it, delta) else none
      | some (best, bestDelta) =>
        if lt delta bestDelta then some (it, delta) else some (best, bestDelta)
    let farther := match nearest with
      | none => false
      | some (_, bestDelta) => lt bestDelta delta
    if lt it.stampSec stampSec && farther then nearest else nearestLoop stampSec nearest rest

/-- `nearestTimedPose` -/
def nearestTimedPose (history : List (TimedPoseMatrix F M)) (stampSec maxTimeDeltaSec : F) :
    Option M :=
  if history = [] || !lib.isFinite stampSec || !lib.isFinite maxTimeDeltaSec ||
      lt maxTimeDeltaSec (lit 0) then
    none
  else
    match nearestLoop lib stampSec none history.reverse with
    | none => none
    | some (nearest, delta) =>
      if lt maxTimeDeltaSec delta || !lib.allFinite nearest.poseMatrix then none
      else some nearest.poseMatrix

end PclLocalization
