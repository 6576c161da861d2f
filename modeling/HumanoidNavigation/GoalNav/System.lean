import HumanoidNavigation.GoalNav.Node
import HumanoidNavigation.Transition.Ledger
import HumanoidNavigation.Transition.Run

/-!
# The goal node and its action servers

`World` is the node together with the ledger of its action goals and the cancel
acknowledgements that were requested and not delivered yet. An action goal is a `Ticket`; its
handle is its position in the ledger. Tickets also record facts that no callback reads, such as
whether a cancel was issued, and `steps` counts the events so far; they are there to state
properties.

`World.step` delivers one event. The servers and the middleware are free: a request is answered
at any time, an accepted goal yields its result at any time, feedback comes at any time, and
acknowledgements are delivered in any order. `Step` lists the cases of a step, and `step_cases`
is the inversion lemma that later proofs use.
-/

namespace GoalNav

variable {F : Type} [PyFloat F]

/-! ### The ledger -/

inductive Request (F : Type) where
  | navigateToPose (pose : PoseStamped F)
  | spin (targetYaw : F)

def Request.isSpin : Request F → Bool
  | navigateToPose _ => false
  | spin _ => true

inductive Phase where
  | requested
  /-- rejected, or the request failed -/
  | refused
  | accepted
  | finished (outcome : Outcome)
  deriving DecidableEq

structure Ticket (F : Type) where
  request : Request F
  /-- the goal message it was made for -/
  summary : ℕ
  sourceStamp : ℚ
  sentAt : ℚ
  phase : Phase := .requested
  /-- the step and the time at which the acceptance was received -/
  acceptedAt : Option (ℕ × ℚ) := none
  cancelIssued : Bool := false
  cancelAcked : Bool := false

/-- A cancel acknowledgement that is under way, with the step that requested it. -/
structure Ack where
  g : ℕ
  callback : CancelCallback
  requestedAt : ℕ
  deriving DecidableEq

structure World (F : Type) where
  node : Node F := {}
  tickets : List (Ticket F) := []
  acks : List Ack := []
  steps : ℕ := 0

namespace Ticket

def ofGoal (goal : Goal F) (now : ℚ) : Ticket F where
  request := .navigateToPose goal.pose
  summary := goal.summary
  sourceStamp := goal.sourceStamp
  sentAt := now

def ofSpin (targetYaw : F) (summary : ℕ) (sourceStamp now : ℚ) : Ticket F where
  request := .spin targetYaw
  summary := summary
  sourceStamp := sourceStamp
  sentAt := now

def isSpin (t : Ticket F) : Bool := t.request.isSpin

def refuse (t : Ticket F) : Ticket F := { t with phase := .refused }

def accept (step : ℕ) (now : ℚ) (t : Ticket F) : Ticket F :=
  { t with phase := .accepted, acceptedAt := some (step, now) }

def finish (outcome : Outcome) (t : Ticket F) : Ticket F :=
  { t with phase := .finished outcome }

def cancel (t : Ticket F) : Ticket F := { t with cancelIssued := true }

def acknowledge (t : Ticket F) : Ticket F := { t with cancelAcked := true }

end Ticket

/-! ### Events -/

inductive Event (F : Type) where
  | map (msg : OccupancyGrid F)
  | goalPose (msg : PoseStamped F) (tf : TfBuffer F) (now sendAt : ℚ)
  | clickedPoint (msg : PointStamped F) (tf : TfBuffer F) (now sendAt : ℚ)
  | cancelNavigation (data : Bool) (now : ℚ)
  | response (g : ℕ) (response : Response) (now : ℚ)
  | result (g : ℕ) (outcome : Outcome) (tf : TfBuffer F) (spinServer : Bool) (now : ℚ)
  | cancelAck (ack : Ack) (now : ℚ)
  | feedback (g : ℕ) (now : ℚ)

/-- The message that `_on_clicked_point` passes on to `_on_goal`. -/
def poseOfPoint (msg : PointStamped F) : PoseStamped F where
  frameId := msg.frameId
  stamp := msg.stamp
  position := ⟨msg.point.x, msg.point.y, PyFloat.lit 0⟩
  orientation := .identity

/-- The arguments of `_on_goal`, for the events that call it. -/
def Event.goalMessage : Event F → Option (PoseStamped F × TfBuffer F × ℚ × ℚ)
  | goalPose msg tf now sendAt => some (msg, tf, now, sendAt)
  | clickedPoint msg tf now sendAt => some (poseOfPoint msg, tf, now, sendAt)
  | _ => none

namespace World

/-- Carry out one call of an action client. -/
def perform (w : World F) : Effect F → World F
  | .sendGoal goal now => { w with tickets := w.tickets ++ [.ofGoal goal now] }
  | .sendSpin targetYaw summary sourceStamp now =>
    { w with tickets := w.tickets ++ [.ofSpin targetYaw summary sourceStamp now] }
  | .cancelGoal g callback =>
    { w with
      tickets := w.tickets.modify g Ticket.cancel
      acks := w.acks ++ [⟨g, callback, w.steps⟩] }

/-- Finish a step: the node is as the callback left it, and its calls are carried out. -/
def commit (w : World F) (r : Node F × List (Effect F)) : World F :=
  let w' := r.2.foldl perform { w with node := r.1 }
  { w' with steps := w.steps + 1 }

def updateTicket (w : World F) (g : ℕ) (f : Ticket F → Ticket F) : World F :=
  { w with tickets := w.tickets.modify g f }

/-- Run `_on_goal`. An exception ends the node. -/
def receiveGoal (cfg : Config F) (w : World F) (msg : PoseStamped F) (tf : TfBuffer F)
    (now sendAt : ℚ) : Option (World F) :=
  match w.node.onGoal cfg msg tf now sendAt w.steps with
  | .ok r => some (w.commit r)
  | .error _ => none

/-- Deliver the response to a request. -/
def receiveResponse (cfg : Config F) (w : World F) (g : ℕ) (response : Response) (now : ℚ) :
    Option (World F) :=
  match w.tickets[g]? with
  | none => none
  | some t =>
    if t.phase = .requested then
      let w' := w.updateTicket g
        (if response = .accepted then Ticket.accept w.steps now else Ticket.refuse)
      some (w'.commit (if t.isSpin then
          w.node.onSpinResponse cfg g response t.sourceStamp now
        else w.node.onGoalResponse cfg g response now, []))
    else none

/-- Deliver the result of an accepted goal. An exception ends the node. -/
def receiveResult (cfg : Config F) (w : World F) (g : ℕ) (outcome : Outcome) (tf : TfBuffer F)
    (spinServer : Bool) (now : ℚ) : Option (World F) :=
  match w.tickets[g]? with
  | none => none
  | some t =>
    if t.phase = .accepted then
      let w' := w.updateTicket g (Ticket.finish outcome)
      if t.isSpin then
        some (w'.commit (w.node.onSpinResult cfg outcome now))
      else
        match w.node.onResult cfg t.summary outcome tf spinServer now with
        | .ok r => some (w'.commit r)
        | .error _ => none
    else none

/-- Deliver a cancel acknowledgement. -/
def receiveAck (cfg : Config F) (w : World F) (ack : Ack) (now : ℚ) : Option (World F) :=
  if ack ∈ w.acks then
    let w' := { w with acks := w.acks.erase ack }.updateTicket ack.g Ticket.acknowledge
    some (w'.commit (match ack.callback with
      | .onCancelDone => w.node.onCancelDone cfg now
      | .onSpinCancelDone => w.node.onSpinCancelDone cfg now
      | .ignore => (w.node, [])))
  else none

/-- Deliver one event; `none` when the event cannot happen or ends the node. -/
def step (cfg : Config F) (w : World F) : Event F → Option (World F)
  | .map msg => some (w.commit (w.node.onMap msg, []))
  | .goalPose msg tf now sendAt => w.receiveGoal cfg msg tf now sendAt
  | .clickedPoint msg tf now sendAt => w.receiveGoal cfg (poseOfPoint msg) tf now sendAt
  | .cancelNavigation data now => some (w.commit (w.node.onCancelNavigation data now))
  | .response g response now => w.receiveResponse cfg g response now
  | .result g outcome tf spinServer now => w.receiveResult cfg g outcome tf spinServer now
  | .cancelAck ack now => w.receiveAck cfg ack now
  | .feedback g now =>
    match w.tickets[g]? with
    | none => none
    | some t =>
      some (w.commit (if t.isSpin then w.node.onSpinFeedback cfg now
        else w.node.onFeedback cfg now, []))

/-- The goal that `_on_goal` sends or queues, when the event is a goal message that passes its
filters. -/
def admitted (cfg : Config F) (w : World F) (e : Event F) : Option (Goal F) :=
  match e.goalMessage with
  | none => none
  | some (msg, tf, now, _) =>
    match w.node.admitGoal cfg msg tf now w.steps with
    | .ok goal => goal
    | .error _ => none

/-! ### The cases of a step -/

/-- One more event has been delivered. -/
def next (w : World F) (n : Node F) (tickets : List (Ticket F)) (acks : List Ack) : World F :=
  { node := n, tickets := tickets, acks := acks, steps := w.steps + 1 }

/-- What a step can do. -/
inductive Step (cfg : Config F) (w : World F) : Event F → World F → Prop where
  | map (msg : OccupancyGrid F) :
      Step cfg w (.map msg) (w.next (w.node.onMap msg) w.tickets w.acks)
  | goalIgnored {e : Event F} (hm : e.goalMessage.isSome) (ha : w.admitted cfg e = none) :
      Step cfg w e (w.next w.node w.tickets w.acks)
  | goalSent {e : Event F} {goal : Goal F} {sendAt : ℚ} (hm : e.goalMessage.isSome)
      (ha : w.admitted cfg e = some goal)
      (hg : w.node.activeGoal = none) (hs : w.node.activeSpin = none) :
      Step cfg w e (w.next (w.node.sendGoal cfg goal sendAt).1
        (w.tickets ++ [.ofGoal goal sendAt]) w.acks)
  | goalQueued {e : Event F} {goal : Goal F} {g : ℕ} (hm : e.goalMessage.isSome)
      (ha : w.admitted cfg e = some goal) (hg : w.node.activeGoal = some g) :
      Step cfg w e (w.next { w.node with pendingGoal := some goal }
        (w.tickets.modify g Ticket.cancel) (w.acks ++ [⟨g, .onCancelDone, w.steps⟩]))
  | goalQueuedSpin {e : Event F} {goal : Goal F} {g : ℕ} (hm : e.goalMessage.isSome)
      (ha : w.admitted cfg e = some goal)
      (hg : w.node.activeGoal = none) (hs : w.node.activeSpin = some g) :
      Step cfg w e (w.next { w.node with pendingGoal := some goal }
        (w.tickets.modify g Ticket.cancel) (w.acks ++ [⟨g, .onSpinCancelDone, w.steps⟩]))
  | graceCleared (now : ℚ) :
      Step cfg w (.cancelNavigation false now)
        (w.next { w.node with cancelIgnoreUntil := 0 } w.tickets w.acks)
  | cancelIgnored {now : ℚ} (h : now < w.node.cancelIgnoreUntil) :
      Step cfg w (.cancelNavigation true now) (w.next w.node w.tickets w.acks)
  | cancelHonoured {now : ℚ} (h : w.node.cancelIgnoreUntil ≤ now) :
      Step cfg w (.cancelNavigation true now) (w.next w.node.cancelAll.1
        (Ledger.modifyAll Ticket.cancel w.tickets w.node.handles)
        (w.acks ++ w.node.handles.map fun g => ⟨g, .ignore, w.steps⟩))
  | goalRefused {g : ℕ} {t : Ticket F} {r : Response} (now : ℚ) (ht : w.tickets[g]? = some t)
      (hp : t.phase = .requested) (hk : t.isSpin = false) (hr : r ≠ .accepted) :
      Step cfg w (.response g r now)
        (w.next w.node (w.tickets.modify g Ticket.refuse) w.acks)
  | spinRefused {g : ℕ} {t : Ticket F} {r : Response} (now : ℚ) (ht : w.tickets[g]? = some t)
      (hp : t.phase = .requested) (hk : t.isSpin = true) (hr : r ≠ .accepted) :
      Step cfg w (.response g r now)
        (w.next { w.node with activeSpinGoalPose := none } (w.tickets.modify g Ticket.refuse)
          w.acks)
  | goalAccepted {g : ℕ} {t : Ticket F} (now : ℚ) (ht : w.tickets[g]? = some t)
      (hp : t.phase = .requested) (hk : t.isSpin = false) :
      Step cfg w (.response g .accepted now)
        (w.next ({ w.node with activeGoal := some g }.extendGrace cfg now)
          (w.tickets.modify g (Ticket.accept w.steps now)) w.acks)
  | spinAccepted {g : ℕ} {t : Ticket F} (now : ℚ) (ht : w.tickets[g]? = some t)
      (hp : t.phase = .requested) (hk : t.isSpin = true) :
      Step cfg w (.response g .accepted now)
        (w.next ({ w.node with activeSpin := some g, activeGoalSourceStamp := t.sourceStamp
            }.extendGrace cfg now)
          (w.tickets.modify g (Ticket.accept w.steps now)) w.acks)
  | goalFinished {g : ℕ} {t : Ticket F} {o : Outcome} (tf : TfBuffer F) (server : Bool) (now : ℚ)
      (ht : w.tickets[g]? = some t) (hp : t.phase = .accepted) (hk : t.isSpin = false)
      (hs : o = .status .succeeded →
        ∀ yaw, ¬Node.SpinNeeded cfg w.node.activeGoalPose tf server yaw) :
      Step cfg w (.result g o tf server now)
        (w.next (w.node.recordResult o).clearGoal (w.tickets.modify g (Ticket.finish o)) w.acks)
  | goalReached {g : ℕ} {t : Ticket F} {yaw : F} {tf : TfBuffer F} {server : Bool} {now : ℚ}
      (ht : w.tickets[g]? = some t) (hp : t.phase = .accepted) (hk : t.isSpin = false)
      (hs : Node.SpinNeeded cfg w.node.activeGoalPose tf server yaw) :
      Step cfg w (.result g (.status .succeeded) tf server now)
        (w.next ({ (w.node.recordResult (.status .succeeded)).clearGoal with
            activeSpinGoalPose := w.node.activeGoalPose }.extendGrace cfg now)
          (w.tickets.modify g (Ticket.finish (.status .succeeded)) ++
            [.ofSpin yaw t.summary w.node.activeGoalSourceStamp now]) w.acks)
  | spinFinished {g : ℕ} {t : Ticket F} {o : Outcome} (tf : TfBuffer F) (server : Bool) (now : ℚ)
      (ht : w.tickets[g]? = some t) (hp : t.phase = .accepted) (hk : t.isSpin = true)
      (hq : o = .failed ∨ w.node.pendingGoal = none) :
      Step cfg w (.result g o tf server now)
        (w.next w.node.clearSpin (w.tickets.modify g (Ticket.finish o)) w.acks)
  | spinFinishedSend {g : ℕ} {t : Ticket F} {o : Outcome} {goal : Goal F} (tf : TfBuffer F)
      (server : Bool) (now : ℚ) (ht : w.tickets[g]? = some t) (hp : t.phase = .accepted)
      (hk : t.isSpin = true) (ho : o ≠ .failed) (hq : w.node.pendingGoal = some goal) :
      Step cfg w (.result g o tf server now)
        (w.next ({ w.node.clearSpin with pendingGoal := none }.sendGoal cfg goal now).1
          (w.tickets.modify g (Ticket.finish o) ++ [.ofGoal goal now]) w.acks)
  | goalAcked {ack : Ack} (now : ℚ) (ha : ack ∈ w.acks) (hc : ack.callback = .onCancelDone)
      (hq : w.node.pendingGoal = none) :
      Step cfg w (.cancelAck ack now)
        (w.next w.node.clearGoal (w.tickets.modify ack.g Ticket.acknowledge)
          (w.acks.erase ack))
  | goalAckedSend {ack : Ack} {goal : Goal F} (now : ℚ) (ha : ack ∈ w.acks)
      (hc : ack.callback = .onCancelDone) (hq : w.node.pendingGoal = some goal) :
      Step cfg w (.cancelAck ack now)
        (w.next ({ w.node.clearGoal with pendingGoal := none }.sendGoal cfg goal now).1
          (w.tickets.modify ack.g Ticket.acknowledge ++ [.ofGoal goal now]) (w.acks.erase ack))
  | spinAcked {ack : Ack} (now : ℚ) (ha : ack ∈ w.acks) (hc : ack.callback = .onSpinCancelDone)
      (hq : w.node.pendingGoal = none) :
      Step cfg w (.cancelAck ack now)
        (w.next w.node.clearSpin (w.tickets.modify ack.g Ticket.acknowledge)
          (w.acks.erase ack))
  | spinAckedSend {ack : Ack} {goal : Goal F} (now : ℚ) (ha : ack ∈ w.acks)
      (hc : ack.callback = .onSpinCancelDone) (hq : w.node.pendingGoal = some goal) :
      Step cfg w (.cancelAck ack now)
        (w.next ({ w.node.clearSpin with pendingGoal := none }.sendGoal cfg goal now).1
          (w.tickets.modify ack.g Ticket.acknowledge ++ [.ofGoal goal now]) (w.acks.erase ack))
  | ackIgnored {ack : Ack} (now : ℚ) (ha : ack ∈ w.acks) (hc : ack.callback = .ignore) :
      Step cfg w (.cancelAck ack now)
        (w.next w.node (w.tickets.modify ack.g Ticket.acknowledge) (w.acks.erase ack))
  | feedback {g : ℕ} {t : Ticket F} (now : ℚ) (ht : w.tickets[g]? = some t) :
      Step cfg w (.feedback g now) (w.next (w.node.extendGrace cfg now) w.tickets w.acks)

variable {cfg : Config F} {w w' : World F}

lemma step_receiveGoal {e : Event F} {msg : PoseStamped F} {tf : TfBuffer F} {now sendAt : ℚ}
    (he : e.goalMessage = some (msg, tf, now, sendAt))
    (h : w.receiveGoal cfg msg tf now sendAt = some w') : Step cfg w e w' := by
  have hm : e.goalMessage.isSome := by simp [he]
  have hadm : w.admitted cfg e = match w.node.admitGoal cfg msg tf now w.steps with
      | .ok goal => goal
      | .error _ => none := by
    simp [admitted, he]
  simp only [receiveGoal, Node.onGoal] at h
  cases hok : w.node.admitGoal cfg msg tf now w.steps with
  | error err => simp [hok, bind, Except.bind] at h
  | ok goal =>
    rw [hok] at h hadm
    cases goal with
    | none =>
      obtain rfl := Option.some.inj h
      exact .goalIgnored hm hadm
    | some goal =>
      obtain rfl := Option.some.inj h
      cases hg : w.node.activeGoal with
      | some g =>
        rw [Node.dispatch_of_activeGoal hg]
        exact .goalQueued hm hadm hg
      | none =>
        cases hs : w.node.activeSpin with
        | some s =>
          rw [Node.dispatch_of_activeSpin hg hs]
          exact .goalQueuedSpin hm hadm hg hs
        | none =>
          rw [Node.dispatch_of_idle hg hs]
          exact .goalSent hm hadm hg hs

omit [PyFloat F] in
/-- Cancel requests leave the node alone. -/
lemma commit_cancel (n : Node F) (gs : List ℕ) (callback : CancelCallback) :
    w.commit (n, gs.map fun g => .cancelGoal g callback) =
      w.next n (Ledger.modifyAll Ticket.cancel w.tickets gs)
        (w.acks ++ gs.map fun g => ⟨g, callback, w.steps⟩) := by
  have hfold : ∀ w : World F, (gs.map fun g => Effect.cancelGoal g callback).foldl perform w =
      { w with
        tickets := Ledger.modifyAll Ticket.cancel w.tickets gs
        acks := w.acks ++ gs.map fun g => ⟨g, callback, w.steps⟩ } := by
    induction gs with
    | nil => simp
    | cons g gs ih => intro w; simp [ih, perform]
  simp [commit, hfold, next]

lemma step_cancelNavigation (data : Bool) (now : ℚ) :
    Step cfg w (.cancelNavigation data now) (w.commit (w.node.onCancelNavigation data now)) := by
  cases data with
  | false => exact .graceCleared now
  | true =>
    simp only [Node.onCancelNavigation, Bool.not_true, Bool.false_eq_true, if_false]
    split_ifs with h
    · exact .cancelIgnored h
    · rw [show w.node.cancelAll = (w.node.cancelAll.1,
        w.node.handles.map fun g => .cancelGoal g .ignore) from rfl, commit_cancel]
      exact .cancelHonoured (not_lt.mp h)

lemma step_receiveResponse {g : ℕ} {r : Response} {now : ℚ}
    (h : w.receiveResponse cfg g r now = some w') : Step cfg w (.response g r now) w' := by
  simp only [receiveResponse] at h
  split at h
  · cases h
  · next t ht =>
    by_cases hp : t.phase = .requested
    · rw [if_pos hp] at h
      cases hk : t.isSpin with
      | false =>
        rw [hk] at h
        cases r with
        | failed =>
          obtain rfl := Option.some.inj h
          exact .goalRefused now ht hp hk (by simp)
        | rejected =>
          obtain rfl := Option.some.inj h
          exact .goalRefused now ht hp hk (by simp)
        | accepted =>
          obtain rfl := Option.some.inj h
          exact .goalAccepted now ht hp hk
      | true =>
        rw [hk] at h
        cases r with
        | failed =>
          obtain rfl := Option.some.inj h
          exact .spinRefused now ht hp hk (by simp)
        | rejected =>
          obtain rfl := Option.some.inj h
          exact .spinRefused now ht hp hk (by simp)
        | accepted =>
          obtain rfl := Option.some.inj h
          exact .spinAccepted now ht hp hk
    · rw [if_neg hp] at h
      cases h

lemma step_receiveResult {g : ℕ} {o : Outcome} {tf : TfBuffer F} {server : Bool} {now : ℚ}
    (h : w.receiveResult cfg g o tf server now = some w') :
    Step cfg w (.result g o tf server now) w' := by
  simp only [receiveResult] at h
  split at h
  · cases h
  · next t ht =>
    split_ifs at h with hp hk
    · -- a spin
      obtain rfl := Option.some.inj h
      cases o with
      | failed => exact .spinFinished tf server now ht hp hk (Or.inl rfl)
      | status s =>
        cases hq : w.node.pendingGoal with
        | none =>
          rw [Node.onSpinResult, Node.sendPending_of_none (n := w.node.clearSpin) hq]
          exact .spinFinished tf server now ht hp hk (Or.inr hq)
        | some goal =>
          rw [Node.onSpinResult, Node.sendPending_of_some (n := w.node.clearSpin) hq]
          exact .spinFinishedSend tf server now ht hp hk (by simp) hq
    · -- a NavigateToPose goal
      split at h
      · next r hr =>
        obtain rfl := Option.some.inj h
        rcases Node.onResult_cases hr with ⟨rfl, hs⟩ | ⟨yaw, rfl, hs, rfl⟩
        · exact .goalFinished tf server now ht hp (by simpa using hk) hs
        · exact .goalReached ht hp (by simpa using hk) hs
      · cases h

lemma step_receiveAck {ack : Ack} {now : ℚ} (h : w.receiveAck cfg ack now = some w') :
    Step cfg w (.cancelAck ack now) w' := by
  simp only [receiveAck] at h
  split_ifs at h with ha
  obtain rfl := Option.some.inj h
  cases hc : ack.callback with
  | ignore => exact .ackIgnored now ha hc
  | onCancelDone =>
    cases hq : w.node.pendingGoal with
    | none =>
      simp only [Node.onCancelDone, Node.sendPending_of_none (n := w.node.clearGoal) hq]
      exact .goalAcked now ha hc hq
    | some goal =>
      simp only [Node.onCancelDone, Node.sendPending_of_some (n := w.node.clearGoal) hq]
      exact .goalAckedSend now ha hc hq
  | onSpinCancelDone =>
    cases hq : w.node.pendingGoal with
    | none =>
      simp only [Node.onSpinCancelDone, Node.sendPending_of_none (n := w.node.clearSpin) hq]
      exact .spinAcked now ha hc hq
    | some goal =>
      simp only [Node.onSpinCancelDone, Node.sendPending_of_some (n := w.node.clearSpin) hq]
      exact .spinAckedSend now ha hc hq

/-- Every step is one of the cases of `Step`. -/
theorem step_cases {e : Event F} (h : w.step cfg e = some w') : Step cfg w e w' := by
  cases e with
  | map msg =>
    obtain rfl := Option.some.inj h
    exact .map msg
  | goalPose msg tf now sendAt => exact step_receiveGoal rfl h
  | clickedPoint msg tf now sendAt => exact step_receiveGoal rfl h
  | cancelNavigation data now =>
    obtain rfl := Option.some.inj h
    exact step_cancelNavigation data now
  | response g r now => exact step_receiveResponse h
  | result g o tf server now => exact step_receiveResult h
  | cancelAck ack now => exact step_receiveAck h
  | feedback g now =>
    simp only [step] at h
    split at h
    · cases h
    · next t ht =>
      obtain rfl := Option.some.inj h
      cases t.isSpin <;> exact .feedback now ht

end World

/-! ### Concrete runs -/

/-- The defaults of the environment variables. -/
def Config.defaults : Config ℚ := { finalYawToleranceRad := 0.1 }

/-- A click on the map, with its stamp and the time at which it is received. -/
def Event.click (x : ℚ) (stamp : ℤ) (now : ℚ) : Event ℚ :=
  .clickedPoint ⟨"map", ⟨stamp, 0⟩, ⟨x, 0, 0⟩⟩ (fun _ _ => none) now now

end GoalNav
