import HumanoidNavigation.GoalNav.Node

/-!
# The plan and preview node

`GoalToPlan` of `g1_goal_to_plan.py` asks the planner for a path to each goal that it receives,
publishes the path and sends it to the controller as a preview. A callback yields the new state of
the node and the calls that it makes. `controller_goal` is the handle of a `FollowPath` goal, given
by the number of that goal.
-/

namespace GoalPlan

open GoalNav (PoseStamped Response GoalStatus)

variable {F : Type}

structure Path (F : Type) where
  frameId : String
  poses : List (PoseStamped F)
  deriving DecidableEq

structure Node where
  mapReady : Bool := false
  controllerGoal : Option ℕ := none
  deriving DecidableEq

/-- A call of an action client or of the publisher. -/
inductive Effect (F : Type) where
  | computePathToPose (goal : PoseStamped F)
  | publishPlan (path : Path F)
  | followPath (path : Path F)
  | cancelGoal (g : ℕ)
  deriving DecidableEq

/-- The result of a planner goal: an exception, or a wrapped status and path. -/
inductive PlanOutcome (F : Type) where
  | failed
  | wrapped (status : GoalStatus) (path : Path F)
  deriving DecidableEq

/-- The path is in the map frame, and so is each of its poses. -/
def Path.inMap (path : Path F) : Path F where
  frameId := "map"
  poses := path.poses.map fun pose => { pose with frameId := "map" }

namespace Node

/-- `on_map` -/
def onMap (n : Node) : Node := { n with mapReady := true }

/-- `on_goal` -/
def onGoal (n : Node) (goal : PoseStamped F) : List (Effect F) :=
  if !n.mapReady then []
  else if String.ofList (goal.frameId.toList.dropWhile (· = '/')) ≠ "map" then []
  else [.computePathToPose { goal with frameId := "map" }]

/-- `start_preview`, with `server` the result of `wait_for_server`. -/
def startPreview (n : Node) (path : Path F) (server : Bool) : Node × List (Effect F) :=
  if !server then (n, [])
  else
    match n.controllerGoal with
    | some g => ({ n with controllerGoal := none }, [.cancelGoal g, .followPath path])
    | none => (n, [.followPath path])

/-- `on_result` -/
def onResult (n : Node) (outcome : PlanOutcome F) (server : Bool) : Node × List (Effect F) :=
  match outcome with
  | .failed => (n, [])
  | .wrapped status path =>
    if status = .succeeded ∧ path.poses ≠ [] then
      let r := n.startPreview path.inMap server
      (r.1, .publishPlan path.inMap :: r.2)
    else (n, [])

/-- `on_preview_goal_response` -/
def onPreviewGoalResponse (n : Node) (g : ℕ) (response : Response) : Node :=
  if response = .accepted then { n with controllerGoal := some g } else n

/-- `on_preview_result`: whatever the result, the handle is cleared. -/
def onPreviewResult (n : Node) : Node := { n with controllerGoal := none }

end Node
end GoalPlan
