import HumanoidNavigation.Ros.Messages

/-!
# Poses, frames and map cells of the goal node

The geometry of `g1_goal_to_nav.py`: messages with a pose, the conversion between quaternions
and rotation matrices, the change of frame of a goal and the map cell that is logged with it.
Everything is stated over `PyFloat`, exceptions included, so that a goal whose numbers make the
code raise is told apart from one that passes.
-/

namespace GoalNav

open PyFloat Ros

variable {F : Type} [PyFloat F]

/-! ### Messages -/

structure PoseStamped (F : Type) where
  frameId : String
  stamp : Stamp
  position : Vector3 F
  orientation : Quaternion F
  deriving DecidableEq

structure PointStamped (F : Type) where
  frameId : String
  stamp : Stamp
  point : Vector3 F

/-- What `lookup_transform(target, source)` returns at some moment; `none` when it raises. -/
abbrev TfBuffer (F : Type) := String → String → Option (Transform F)

structure OccupancyGrid (F : Type) where
  frameId : String
  resolution : F
  width : ℕ
  height : ℕ
  originPosition : Vector3 F
  originOrientation : Quaternion F
  data : List ℤ

/-! ### Rotations -/

/-- `_quat_to_mat` -/
def quatToMat (q : Quaternion F) : Mat3 F :=
  !![lit 1 - lit 2 * (q.y * q.y + q.z * q.z), lit 2 * (q.x * q.y - q.z * q.w),
      lit 2 * (q.x * q.z + q.y * q.w);
    lit 2 * (q.x * q.y + q.z * q.w), lit 1 - lit 2 * (q.x * q.x + q.z * q.z),
      lit 2 * (q.y * q.z - q.x * q.w);
    lit 2 * (q.x * q.z - q.y * q.w), lit 2 * (q.y * q.z + q.x * q.w),
      lit 1 - lit 2 * (q.x * q.x + q.y * q.y)]

/-- The last lines of `_rot_to_quat`. In every branch one component is a Python float, so a
zero norm raises. -/
def normalizeQuat (x y z w : F) : Except PyError (Quaternion F) := do
  let norm ← sqrt (x * x + y * y + z * z + w * w)
  return ⟨← div x norm, ← div y norm, ← div z norm, ← div w norm⟩

/-- `_rot_to_quat` -/
def rotToQuat (m : Mat3 F) : Except PyError (Quaternion F) := do
  let tr := m 0 0 + m 1 1 + m 2 2
  if lt (lit 0) tr then
    let s ← div (lit 0.5) (← sqrt (tr + lit 1))
    let w ← div (lit 0.25) s
    normalizeQuat ((m 2 1 - m 1 2) * s) ((m 0 2 - m 2 0) * s) ((m 1 0 - m 0 1) * s) w
  else if lt (m 1 1) (m 0 0) && lt (m 2 2) (m 0 0) then
    let s := lit 2 * (← sqrt (lit 1 + m 0 0 - m 1 1 - m 2 2))
    normalizeQuat (lit 0.25 * s) (npDiv (m 0 1 + m 1 0) s) (npDiv (m 0 2 + m 2 0) s)
      (npDiv (m 2 1 - m 1 2) s)
  else if lt (m 2 2) (m 1 1) then
    let s := lit 2 * (← sqrt (lit 1 + m 1 1 - m 0 0 - m 2 2))
    normalizeQuat (npDiv (m 0 1 + m 1 0) s) (lit 0.25 * s) (npDiv (m 1 2 + m 2 1) s)
      (npDiv (m 0 2 - m 2 0) s)
  else
    let s := lit 2 * (← sqrt (lit 1 + m 2 2 - m 0 0 - m 1 1))
    normalizeQuat (npDiv (m 0 2 + m 2 0) s) (npDiv (m 1 2 + m 2 1) s) (lit 0.25 * s)
      (npDiv (m 1 0 - m 0 1) s)

/-- `_transform_to_mat` -/
def transformToMat (tf : Transform F) : Mat4 F :=
  let r := quatToMat tf.rotation
  let t := tf.translation
  !![r 0 0, r 0 1, r 0 2, t.x;
    r 1 0, r 1 1, r 1 2, t.y;
    r 2 0, r 2 1, r 2 2, t.z;
    lit 0, lit 0, lit 0, lit 1]

/-- `_yaw_from_quaternion` -/
def yawFromQuaternion (q : Quaternion F) : F :=
  let sinyCosp := lit 2 * (q.w * q.z + q.x * q.y)
  let cosyCosp := lit 1 - lit 2 * (q.y * q.y + q.z * q.z)
  atan2 sinyCosp cosyCosp

/-- `_angle_diff` -/
def angleDiff (target current : F) : Except PyError F := do
  return atan2 (← sin (target - current)) (← cos (target - current))

/-! ### Frames -/

/-- `frame_id.lstrip("/")`, with an empty frame read as the map frame. -/
def normalizeFrame (frameId : String) : String :=
  let frameId := if frameId.isEmpty then "map" else frameId
  String.ofList (frameId.toList.dropWhile (· = '/'))

/-- The product of the rotation part of a `4 × 4` matrix with a rotation matrix. -/
def mulRotation (m : Mat4 F) (r : Mat3 F) : Mat3 F := fun i j =>
  m i.castSucc 0 * r 0 j + m i.castSucc 1 * r 1 j + m i.castSucc 2 * r 2 j

/-- `_goal_in_frame`: `none` when there is no transform to the target frame. -/
def goalInFrame (tf : TfBuffer F) (pose : PoseStamped F) (targetFrame : String) :
    Except PyError (Option (PoseStamped F)) :=
  if pose.frameId = targetFrame then
    return some pose
  else
    match tf targetFrame pose.frameId with
    | none => return none
    | some t => do
      let m := transformToMat t
      let q ← rotToQuat (mulRotation m (quatToMat pose.orientation))
      return some { pose with
        frameId := targetFrame
        position := applyPoint m pose.position
        orientation := q }

/-- `_same_goal` with its default tolerance -/
def sameGoal (a b : PoseStamped F) : Bool :=
  lt (abs (a.position.x - b.position.x)) (lit 0.05) &&
    lt (abs (a.position.y - b.position.y)) (lit 0.05)

/-! ### Map cells -/

/-- `_world_to_map_cell`, on a map that was received -/
def worldToMapCell (map : OccupancyGrid F) (x y : F) : Except PyError (Option (ℤ × ℤ × ℤ)) := do
  let yaw := yawFromQuaternion map.originOrientation
  let dx := x - map.originPosition.x
  let dy := y - map.originPosition.y
  let mapX := (← cos (-yaw)) * dx - (← sin (-yaw)) * dy
  let mapY := (← sin (-yaw)) * dx + (← cos (-yaw)) * dy
  let col ← floor (← div mapX map.resolution)
  let row ← floor (← div mapY map.resolution)
  if col < 0 ∨ row < 0 ∨ col ≥ map.width ∨ row ≥ map.height then
    return none
  else
    return some (col, row, row * map.width + col)

/-- The cases of the text that `_map_cell_summary` returns. -/
inductive CellSummary where
  | noMapReceived
  | frameMismatch (goal map : String)
  | outsideMap
  | cell (col row value : ℤ)

/-- `_map_cell_summary` -/
def mapCellSummary (map : Option (OccupancyGrid F)) (pose : PoseStamped F) :
    Except PyError CellSummary :=
  match map with
  | none => return .noMapReceived
  | some map =>
    if pose.frameId ≠ map.frameId then
      return .frameMismatch pose.frameId map.frameId
    else do
      match ← worldToMapCell map pose.position.x pose.position.y with
      | none => return .outsideMap
      | some (col, row, index) =>
        match map.data[index.toNat]? with
        | some value => return .cell col row value
        | none => throw .indexError

end GoalNav
