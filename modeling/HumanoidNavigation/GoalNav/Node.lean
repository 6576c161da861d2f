import HumanoidNavigation.GoalNav.Geometry

/-!
# The goal node

`Node` is the state of `GoalToNav` in `g1_goal_to_nav.py`, and the definitions below are its
callbacks. A callback returns the new state and the requests it makes to the two action
clients. Goal handles are numbers that the system of `GoalNav.System` gives out.

Log texts are left out. The source hands a summary text along with every goal and with every
callback that belongs to the goal, for the log only; the model hands along, in its place, the
number of the goal message that the text describes.

A callback that reads the clock once takes that reading as `now`; `_on_goal` reads it again in
`_send_goal`, and takes that reading as `sendAt`.
-/

namespace GoalNav

open PyFloat

variable {F : Type} [PyFloat F]

/-- The environment variables of the node, with the defaults of the source. -/
structure Config (F : Type) where
  goalDedupS : ℚ := 5
  goalFreshS : ℚ := 15
  cancelGraceS : ℚ := 5
  finalSpinToGoalYaw : Bool := true
  finalYawToleranceRad : F
  finalHeadingFrame : String := "g1_nav_base"
  finalHeadingFallbackFrame : String := "body_level"
  ignoreGoalYaw : Bool := true

/-- The arguments of `_send_goal`, which are also what `_pending_goal` holds. -/
structure Goal (F : Type) where
  pose : PoseStamped F
  summary : ℕ
  sourceStamp : ℚ
  deriving DecidableEq

structure Node (F : Type) where
  map : Option (OccupancyGrid F) := none
  activeGoal : Option ℕ := none
  activeGoalPose : Option (PoseStamped F) := none
  activeSpin : Option ℕ := none
  activeSpinGoalPose : Option (PoseStamped F) := none
  pendingGoal : Option (Goal F) := none
  lastSentGoalPose : Option (PoseStamped F) := none
  lastSentGoalTime : ℚ := 0
  cancelIgnoreUntil : ℚ := 0
  activeGoalSourceStamp : ℚ := 0
  lastSucceededSourceStamp : ℚ := -1

/-- The callback that is registered on the acknowledgement of a cancel. -/
inductive CancelCallback where
  | onCancelDone
  | onSpinCancelDone
  /-- `lambda _: None` -/
  | ignore
  deriving DecidableEq

/-- A call of an action client. -/
inductive Effect (F : Type) where
  | sendGoal (goal : Goal F) (now : ℚ)
  | sendSpin (targetYaw : F) (summary : ℕ) (sourceStamp : ℚ) (now : ℚ)
  | cancelGoal (g : ℕ) (callback : CancelCallback)

/-- The response to a request: an exception, a rejection or an accepted handle. -/
inductive Response where
  | failed
  | rejected
  | accepted
  deriving DecidableEq

inductive GoalStatus where
  | unknown
  | accepted
  | executing
  | canceling
  | succeeded
  | canceled
  | aborted
  deriving DecidableEq

/-- The result of a goal: an exception, or a wrapped status. -/
inductive Outcome where
  | failed
  | status (status : GoalStatus)
  deriving DecidableEq

namespace Node

/-- `_cancel_ignore_until = now + CANCEL_GRACE_S` -/
def extendGrace (cfg : Config F) (n : Node F) (now : ℚ) : Node F :=
  { n with cancelIgnoreUntil := now + cfg.cancelGraceS }

/-- `_active_goal` and its pose are cleared together. -/
def clearGoal (n : Node F) : Node F := { n with activeGoal := none, activeGoalPose := none }

/-- `_active_spin` and its pose are cleared together. -/
def clearSpin (n : Node F) : Node F := { n with activeSpin := none, activeSpinGoalPose := none }

/-- `_on_map` -/
def onMap (n : Node F) (msg : OccupancyGrid F) : Node F := { n with map := some msg }

/-- `_send_goal` -/
def sendGoal (cfg : Config F) (n : Node F) (goal : Goal F) (now : ℚ) :
    Node F × List (Effect F) :=
  ({ n with
      activeGoalPose := some goal.pose
      activeGoalSourceStamp := goal.sourceStamp
      lastSentGoalPose := some goal.pose
      lastSentGoalTime := now
      cancelIgnoreUntil := now + cfg.cancelGraceS },
    [.sendGoal goal now])

/-- The last lines of three callbacks: what waits in `_pending_goal` is taken out and sent. -/
def sendPending (cfg : Config F) (n : Node F) (now : ℚ) : Node F × List (Effect F) :=
  match n.pendingGoal with
  | some goal => { n with pendingGoal := none }.sendGoal cfg goal now
  | none => (n, [])

/-! ### Goal messages -/

/-- The pose that a new goal is compared with while an action is active. -/
def activePose (n : Node F) : Option (PoseStamped F) :=
  if n.activeGoal.isSome then n.activeGoalPose else n.activeSpinGoalPose

/-- The stamp is dropped, and the yaw as well if it is to be ignored. -/
def dropStampAndYaw (cfg : Config F) (pose : PoseStamped F) : PoseStamped F :=
  { pose with
    stamp := ⟨0, 0⟩
    orientation := if cfg.ignoreGoalYaw then .identity else pose.orientation }

/-- The filters of `_on_goal` that compare the goal with earlier ones: a replay of the goal that
was just reached, a duplicate of the goal that was just sent, and a duplicate of the goal that is
being pursued. -/
def isDuplicate (cfg : Config F) (n : Node F) (pose : PoseStamped F) (sourceStamp now : ℚ) :
    Bool :=
  (0 < sourceStamp && sourceStamp = n.lastSucceededSourceStamp) ||
  (n.lastSentGoalPose.any fun sent =>
    now - n.lastSentGoalTime < cfg.goalDedupS && sameGoal pose sent) ||
  ((n.activeGoal.isSome || n.activeSpin.isSome) && n.activePose.any (sameGoal pose))

/-- The filters of `_on_goal`: the goal to send or to queue, in the map frame, or `none` for a
message that is ignored. -/
def admitGoal (cfg : Config F) (n : Node F) (msg : PoseStamped F) (tf : TfBuffer F) (now : ℚ)
    (summary : ℕ) : Except PyError (Option (Goal F)) :=
  let sourceStamp := msg.stamp.seconds
  -- stale replays of a latched topic
  if 0 < sourceStamp ∧ now - sourceStamp > cfg.goalFreshS then
    return none
  else do
    match ← goalInFrame tf { msg with frameId := normalizeFrame msg.frameId } "map" with
    | none => return none
    | some pose =>
      let pose := dropStampAndYaw cfg pose
      let _ ← mapCellSummary n.map pose
      return if n.isDuplicate cfg pose sourceStamp now then none
        else some ⟨pose, summary, sourceStamp⟩

/-- The end of `_on_goal`: an idle node sends the goal, a busy one queues it and cancels what it
is doing. -/
def dispatch (cfg : Config F) (n : Node F) (goal : Goal F) (sendAt : ℚ) :
    Node F × List (Effect F) :=
  match n.activeGoal, n.activeSpin with
  | some g, _ => ({ n with pendingGoal := some goal }, [.cancelGoal g .onCancelDone])
  | none, some s => ({ n with pendingGoal := some goal }, [.cancelGoal s .onSpinCancelDone])
  | none, none => n.sendGoal cfg goal sendAt

/-- `_on_goal` -/
def onGoal (cfg : Config F) (n : Node F) (msg : PoseStamped F) (tf : TfBuffer F)
    (now sendAt : ℚ) (summary : ℕ) : Except PyError (Node F × List (Effect F)) := do
  match ← n.admitGoal cfg msg tf now summary with
  | none => return (n, [])
  | some goal => return n.dispatch cfg goal sendAt

/-! ### Cancels -/

/-- `_on_cancel_done` -/
def onCancelDone (cfg : Config F) (n : Node F) (now : ℚ) : Node F × List (Effect F) :=
  n.clearGoal.sendPending cfg now

/-- `_on_spin_cancel_done` -/
def onSpinCancelDone (cfg : Config F) (n : Node F) (now : ℚ) : Node F × List (Effect F) :=
  n.clearSpin.sendPending cfg now

/-- The handles that the node holds. -/
def handles (n : Node F) : List ℕ := n.activeGoal.toList ++ n.activeSpin.toList

/-- The part of `_on_cancel_navigation` that runs after the grace period. -/
def cancelAll (n : Node F) : Node F × List (Effect F) :=
  let m := { n with pendingGoal := none }
  let m := if n.activeGoal.isSome then m.clearGoal else m
  let m := if n.activeSpin.isSome then m.clearSpin else m
  (m, n.handles.map fun g => .cancelGoal g .ignore)

/-- `_on_cancel_navigation` -/
def onCancelNavigation (n : Node F) (data : Bool) (now : ℚ) : Node F × List (Effect F) :=
  if !data then
    ({ n with cancelIgnoreUntil := 0 }, [])
  else if now < n.cancelIgnoreUntil then
    (n, [])
  else
    n.cancelAll

/-! ### NavigateToPose -/

/-- `_on_feedback` -/
def onFeedback (cfg : Config F) (n : Node F) (now : ℚ) : Node F := n.extendGrace cfg now

/-- `_on_goal_response`, for the request whose handle is `g` -/
def onGoalResponse (cfg : Config F) (n : Node F) (g : ℕ) (response : Response) (now : ℚ) :
    Node F :=
  match response with
  | .failed | .rejected => n
  | .accepted => { n with activeGoal := some g }.extendGrace cfg now

/-- `_current_heading_yaw` -/
def currentHeadingYaw (cfg : Config F) (tf : TfBuffer F) : Option F :=
  let fallback := cfg.finalHeadingFallbackFrame
  let frames := cfg.finalHeadingFrame ::
    if fallback ≠ "" ∧ fallback ≠ cfg.finalHeadingFrame then [fallback] else []
  frames.findSome? fun frame => (tf "map" frame).map fun t => yawFromQuaternion t.rotation

/-- `_send_final_spin_if_needed`; `spinServer` is the result of `wait_for_server`. -/
def sendFinalSpinIfNeeded (cfg : Config F) (n : Node F) (goalPose : Option (PoseStamped F))
    (summary : ℕ) (sourceStamp : ℚ) (tf : TfBuffer F) (spinServer : Bool) (now : ℚ) :
    Except PyError (Node F × List (Effect F)) :=
  match goalPose with
  | none => return (n, [])
  | some pose =>
    if cfg.ignoreGoalYaw || !cfg.finalSpinToGoalYaw then
      return (n, [])
    else
      match currentHeadingYaw cfg tf with
      | none => return (n, [])
      | some currentYaw => do
        let yawError ← angleDiff (yawFromQuaternion pose.orientation) currentYaw
        if le (abs yawError) cfg.finalYawToleranceRad || !spinServer then
          return (n, [])
        else
          return ({ n with activeSpinGoalPose := some pose }.extendGrace cfg now,
            [.sendSpin yawError summary sourceStamp now])

/-- `_on_result`, registered with the summary of its own goal -/
def onResult (cfg : Config F) (n : Node F) (summary : ℕ) (outcome : Outcome) (tf : TfBuffer F)
    (spinServer : Bool) (now : ℚ) : Except PyError (Node F × List (Effect F)) :=
  let finishedGoalPose := n.activeGoalPose
  let finishedSourceStamp := n.activeGoalSourceStamp
  let n := n.clearGoal
  if outcome = .status .succeeded then
    { n with lastSucceededSourceStamp := finishedSourceStamp }.sendFinalSpinIfNeeded cfg
      finishedGoalPose summary finishedSourceStamp tf spinServer now
  else
    return (n, [])

/-! ### Spin -/

/-- `_on_spin_feedback` -/
def onSpinFeedback (cfg : Config F) (n : Node F) (now : ℚ) : Node F := n.extendGrace cfg now

/-- `_on_spin_response`, registered with the source stamp of the goal that was reached -/
def onSpinResponse (cfg : Config F) (n : Node F) (g : ℕ) (response : Response)
    (sourceStamp now : ℚ) : Node F :=
  match response with
  | .failed | .rejected => { n with activeSpinGoalPose := none }
  | .accepted =>
    { n with activeSpin := some g, activeGoalSourceStamp := sourceStamp }.extendGrace cfg now

/-- `_on_spin_result` -/
def onSpinResult (cfg : Config F) (n : Node F) (outcome : Outcome) (now : ℚ) :
    Node F × List (Effect F) :=
  match outcome with
  | .failed => (n.clearSpin, [])
  | .status _ => n.clearSpin.sendPending cfg now

/-! ### What the callbacks do -/

section

variable {cfg : Config F} {n : Node F} {goal : Goal F} {g : ℕ} {now : ℚ}

/-- A goal passes the filters with the number and the stamp of its message. -/
lemma admitGoal_eq_some {msg : PoseStamped F} {tf : TfBuffer F} {summary : ℕ}
    (h : n.admitGoal cfg msg tf now summary = .ok (some goal)) :
    goal.summary = summary ∧ goal.sourceStamp = msg.stamp.seconds := by
  simp only [admitGoal, bind, Except.bind] at h
  by_cases hstale : 0 < msg.stamp.seconds ∧ now - msg.stamp.seconds > cfg.goalFreshS
  · rw [if_pos hstale] at h
    cases h
  · rw [if_neg hstale] at h
    split at h
    · cases h
    · split at h
      · cases h
      · split at h
        · cases h
        · split_ifs at h with hdup
          · cases h
          · cases h
            exact ⟨rfl, rfl⟩

omit [PyFloat F] in
lemma dispatch_of_activeGoal (hg : n.activeGoal = some g) : n.dispatch cfg goal now =
    ({ n with pendingGoal := some goal }, [.cancelGoal g .onCancelDone]) := by
  simp [dispatch, hg]

omit [PyFloat F] in
lemma dispatch_of_activeSpin (hg : n.activeGoal = none) (hs : n.activeSpin = some g) :
    n.dispatch cfg goal now =
      ({ n with pendingGoal := some goal }, [.cancelGoal g .onSpinCancelDone]) := by
  simp [dispatch, hg, hs]

omit [PyFloat F] in
lemma dispatch_of_idle (hg : n.activeGoal = none) (hs : n.activeSpin = none) :
    n.dispatch cfg goal now = n.sendGoal cfg goal now := by
  simp [dispatch, hg, hs]

omit [PyFloat F] in
lemma sendPending_of_none (hq : n.pendingGoal = none) : n.sendPending cfg now = (n, []) := by
  simp [sendPending, hq]

omit [PyFloat F] in
lemma sendPending_of_some (hq : n.pendingGoal = some goal) : n.sendPending cfg now =
    { n with pendingGoal := none }.sendGoal cfg goal now := by
  simp [sendPending, hq]

/-- `_send_final_spin_if_needed` gets as far as its request, with this yaw error. -/
structure SpinNeeded (cfg : Config F) (goalPose : Option (PoseStamped F)) (tf : TfBuffer F)
    (spinServer : Bool) (yawError : F) : Prop where
  yaw : cfg.ignoreGoalYaw = false
  finalSpin : cfg.finalSpinToGoalYaw = true
  server : spinServer = true
  tolerance : le (abs yawError) cfg.finalYawToleranceRad = false
  towards : ∃ pose heading, goalPose = some pose ∧ currentHeadingYaw cfg tf = some heading ∧
    angleDiff (yawFromQuaternion pose.orientation) heading = .ok yawError

lemma sendFinalSpinIfNeeded_cases {goalPose : Option (PoseStamped F)} {summary : ℕ}
    {sourceStamp : ℚ} {tf : TfBuffer F} {spinServer : Bool} {r : Node F × List (Effect F)}
    (h : n.sendFinalSpinIfNeeded cfg goalPose summary sourceStamp tf spinServer now = .ok r) :
    r = (n, []) ∧ (∀ yaw, ¬SpinNeeded cfg goalPose tf spinServer yaw) ∨
    ∃ yaw, SpinNeeded cfg goalPose tf spinServer yaw ∧
      r = ({ n with activeSpinGoalPose := goalPose }.extendGrace cfg now,
        [.sendSpin yaw summary sourceStamp now]) := by
  simp only [sendFinalSpinIfNeeded] at h
  split at h
  · refine Or.inl ⟨(Except.ok.inj h).symm, ?_⟩
    rintro yaw ⟨-, -, -, -, pose, heading, hpose, -⟩
    cases hpose
  · next pose =>
    split_ifs at h with hcfg
    · refine Or.inl ⟨(Except.ok.inj h).symm, ?_⟩
      rintro yaw ⟨hyaw, hspin, -⟩
      simp [hyaw, hspin] at hcfg
    · split at h
      · next hheading =>
        refine Or.inl ⟨(Except.ok.inj h).symm, ?_⟩
        rintro yaw ⟨-, -, -, -, pose', heading, -, hheading', -⟩
        rw [hheading] at hheading'
        cases hheading'
      · next heading hheading =>
        cases hyaw : angleDiff (yawFromQuaternion pose.orientation) heading with
        | error err => simp [hyaw, bind, Except.bind] at h
        | ok yaw =>
          simp only [hyaw, bind, Except.bind] at h
          split_ifs at h with hle
          · refine Or.inl ⟨(Except.ok.inj h).symm, ?_⟩
            rintro yaw' ⟨-, -, hserver, htol, pose', heading', hpose, hheading', hyaw'⟩
            cases hpose
            rw [hheading] at hheading'
            cases hheading'
            rw [hyaw] at hyaw'
            cases hyaw'
            simp [hserver, htol] at hle
          · obtain ⟨htol, hserver⟩ : le (abs yaw) cfg.finalYawToleranceRad = false ∧
                spinServer = true := by
              simpa using hle
            obtain ⟨hign, hspin⟩ : cfg.ignoreGoalYaw = false ∧ cfg.finalSpinToGoalYaw = true := by
              simpa using hcfg
            exact Or.inr ⟨yaw, ⟨hign, hspin, hserver, htol, pose, heading, rfl, hheading, hyaw⟩,
              (Except.ok.inj h).symm⟩

/-- What `_on_result` remembers about a goal that succeeded. -/
def recordResult (n : Node F) (outcome : Outcome) : Node F :=
  if outcome = .status .succeeded then
    { n with lastSucceededSourceStamp := n.activeGoalSourceStamp }
  else n

/-- `_on_result` clears the goal, and it starts a spin only for a goal that succeeded, towards
the yaw of the pose that it found. -/
lemma onResult_cases {summary : ℕ} {outcome : Outcome} {tf : TfBuffer F} {spinServer : Bool}
    {r : Node F × List (Effect F)}
    (h : n.onResult cfg summary outcome tf spinServer now = .ok r) :
    r = ((n.recordResult outcome).clearGoal, []) ∧
      (outcome = .status .succeeded → ∀ yaw, ¬SpinNeeded cfg n.activeGoalPose tf spinServer yaw) ∨
    ∃ yaw, outcome = .status .succeeded ∧ SpinNeeded cfg n.activeGoalPose tf spinServer yaw ∧
      r = ({ (n.recordResult (.status .succeeded)).clearGoal with
          activeSpinGoalPose := n.activeGoalPose }.extendGrace cfg now,
        [.sendSpin yaw summary n.activeGoalSourceStamp now]) := by
  by_cases ho : outcome = .status .succeeded
  · subst ho
    rcases sendFinalSpinIfNeeded_cases (h : _ = Except.ok r) with ⟨hr, hno⟩ | ⟨yaw, hyaw, hr⟩
    · exact Or.inl ⟨hr, fun _ => hno⟩
    · exact Or.inr ⟨yaw, rfl, hyaw, hr⟩
  · refine Or.inl ⟨?_, fun h => absurd h ho⟩
    simp only [onResult, if_neg ho] at h
    rw [← Except.ok.inj h, recordResult, if_neg ho]

/-! ### Fields -/

variable {outcome : Outcome}

omit [PyFloat F]

@[simp] lemma recordResult_activeSpin : (n.recordResult outcome).activeSpin = n.activeSpin := by
  simp only [recordResult]; split_ifs <;> rfl

@[simp] lemma recordResult_pendingGoal :
    (n.recordResult outcome).pendingGoal = n.pendingGoal := by
  simp only [recordResult]; split_ifs <;> rfl

@[simp] lemma recordResult_cancelIgnoreUntil :
    (n.recordResult outcome).cancelIgnoreUntil = n.cancelIgnoreUntil := by
  simp only [recordResult]; split_ifs <;> rfl

lemma recordResult_lastSucceededSourceStamp :
    (n.recordResult outcome).lastSucceededSourceStamp =
      if outcome = .status .succeeded then n.activeGoalSourceStamp
      else n.lastSucceededSourceStamp := by
  simp only [recordResult]; split_ifs <;> rfl

/-- The pose of a handle is cleared with it, and stays when there is none. -/
lemma cancelAll_eq : n.cancelAll.1 =
    { n with
      pendingGoal := none
      activeGoal := none
      activeGoalPose := if n.activeGoal.isSome then none else n.activeGoalPose
      activeSpin := none
      activeSpinGoalPose := if n.activeSpin.isSome then none else n.activeSpinGoalPose } := by
  obtain ⟨_, goal, _, spin, _⟩ := n
  cases goal <;> cases spin <;> rfl

@[simp] lemma cancelAll_activeGoal : n.cancelAll.1.activeGoal = none := by
  rw [cancelAll_eq]

@[simp] lemma cancelAll_activeSpin : n.cancelAll.1.activeSpin = none := by
  rw [cancelAll_eq]

@[simp] lemma cancelAll_pendingGoal : n.cancelAll.1.pendingGoal = none := by
  rw [cancelAll_eq]

@[simp] lemma cancelAll_cancelIgnoreUntil :
    n.cancelAll.1.cancelIgnoreUntil = n.cancelIgnoreUntil := by
  rw [cancelAll_eq]

@[simp] lemma cancelAll_activeGoalSourceStamp :
    n.cancelAll.1.activeGoalSourceStamp = n.activeGoalSourceStamp := by
  rw [cancelAll_eq]

@[simp] lemma cancelAll_lastSucceededSourceStamp :
    n.cancelAll.1.lastSucceededSourceStamp = n.lastSucceededSourceStamp := by
  rw [cancelAll_eq]

lemma cancelAll_activeGoalPose (hg : n.activeGoal = none) :
    n.cancelAll.1.activeGoalPose = n.activeGoalPose := by
  simp [cancelAll_eq, hg]

lemma mem_handles : g ∈ n.handles ↔ n.activeGoal = some g ∨ n.activeSpin = some g := by
  simp [handles]

end

end Node
end GoalNav
