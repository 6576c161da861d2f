import HumanoidNavigation.Ros.Messages
import HumanoidNavigation.Transition.Run

/-!
# The pose bridge

`g1_nav_pose_bridge.py` turns the transform from the map to the body into a planar navigation frame
and an odometry message, ten times a second. What the transform buffer answers and what the clock
shows comes with each tick.
-/

namespace PoseBridge

open PyFloat Ros Transition

variable {F : Type} [PyFloat F]

/-- A `nav_msgs/Odometry` of the plane: the coordinates that are not here stay zero. -/
structure Odometry (F : Type) where
  stamp : Stamp
  frameId : String
  childFrameId : String
  position : Vector3 F
  orientation : Quaternion F
  linear : Vector3 F
  angular : Vector3 F

/-- What the node publishes and sends, and its warnings. -/
inductive Output (F : Type) where
  | ready (data : Bool)
  | transform (tf : TransformStamped F)
  | odometry (msg : Odometry F)
  | warning

/-- `self.last_pose` -/
structure LastPose (F : Type) where
  x : F
  y : F
  yaw : F
  s : F

structure Node (F : Type) where
  lastWarning : F
  lastPose : Option (LastPose F)

def Node.init : Node F := ⟨lit 0, none⟩

/-- A call of the timer: the transform from the map to the body, unless the lookup raises a
`TransformException`, and the clock as a stamp and in nanoseconds. -/
structure Tick (F : Type) where
  source : Option (Transform F)
  stamp : Stamp
  nanoseconds : ℤ

/-- `nanoseconds / 1.0e9` -/
def Tick.seconds (e : Tick F) : Except PyError F := div (lit e.nanoseconds) (lit (10 ^ 9))

/-- `forward_x` -/
def forwardX (q : Quaternion F) : F := lit 1 - lit 2 * (q.y * q.y + q.z * q.z)

/-- `forward_y` -/
def forwardY (q : Quaternion F) : F := lit 2 * (q.x * q.y + q.w * q.z)

/-- The built-in `max`, which keeps the first argument unless the second one is larger. -/
def pyMax (x y : F) : F := if lt x y then y else x

/-- The twist of the message, from the pose of the last one. -/
def twist (last : LastPose F) (x y yaw nowS : F) :
    Except PyError (Vector3 F × Vector3 F) := do
  let dt := pyMax (nowS - last.s) (lit (1 / 10 ^ 3))
  let vxMap ← div (x - last.x) dt
  let vyMap ← div (y - last.y) dt
  let vx := (← cos yaw) * vxMap + (← sin yaw) * vyMap
  let vy := -(← sin yaw) * vxMap + (← cos yaw) * vyMap
  let yawDelta := atan2 (← sin (yaw - last.yaw)) (← cos (yaw - last.yaw))
  let wz ← div yawDelta dt
  return (⟨vx, vy, lit 0⟩, ⟨lit 0, lit 0, wz⟩)

/-- `tick`, with `math.hypot` as a parameter -/
def Node.tick (hypot : F → F → F) (s : Node F) (e : Tick F) :
    Except PyError (Node F × List (Output F)) :=
  match e.source with
  | none => do
    let now ← e.seconds
    if lt (lit 2) (now - s.lastWarning) then
      return ({ s with lastWarning := now }, [.ready false, .warning])
    else return (s, [.ready false])
  | some source => do
    let q := source.rotation
    if lt (hypot (forwardX q) (forwardY q)) (lit (1 / 4)) then return (s, [.ready false])
    else
      let yaw := atan2 (forwardY q) (forwardX q)
      let half := lit (1 / 2) * yaw
      let x := source.translation.x
      let y := source.translation.y
      let orientation := ⟨lit 0, lit 0, ← sin half, ← cos half⟩
      let flat :=
        { stamp := e.stamp
          frameId := "map"
          childFrameId := "g1_nav_base"
          transform := ⟨⟨x, y, lit 0⟩, orientation⟩ }
      let nowS ← e.seconds
      let (linear, angular) ← match s.lastPose with
        | none => pure (⟨lit 0, lit 0, lit 0⟩, ⟨lit 0, lit 0, lit 0⟩)
        | some last => twist last x y yaw nowS
      let odom :=
        { stamp := e.stamp
          frameId := "map"
          childFrameId := "g1_nav_base"
          position := ⟨x, y, lit 0⟩
          orientation := orientation
          linear := linear
          angular := angular }
      return ({ s with lastPose := some ⟨x, y, yaw, nowS⟩ },
        [.transform flat, .odometry odom, .ready true])

/-- The node and what it put out at each tick. An exception ends the node. -/
structure World (F : Type) where
  node : Node F
  log : List (Tick F × List (Output F))

namespace World

def init : World F := ⟨.init, []⟩

def step (hypot : F → F → F) (w : World F) (e : Tick F) : Option (World F) :=
  match w.node.tick hypot e with
  | .error _ => none
  | .ok (node, out) => some ⟨node, w.log ++ [(e, out)]⟩

end World

end PoseBridge
