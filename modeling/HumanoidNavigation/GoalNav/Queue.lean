import HumanoidNavigation.GoalNav.Handles
import HumanoidNavigation.Transition.Outbox

/-!
# Sent and queued goals

The goals that the node has sent, together with the one in `_pending_goal`, are an `Outbox`, and
`Step.outbox` says which of its actions a step is. With it no goal is lost or sent twice, and a
goal in the queue always has an acknowledgement under way that will send it.
-/

namespace GoalNav

open Ledger Transition

variable {F : Type}

/-- The goal of a `NavigateToPose` request. -/
def Ticket.goal? (t : Ticket F) : Option (Goal F) :=
  match t.request with
  | .navigateToPose pose => some ⟨pose, t.summary, t.sourceStamp⟩
  | .spin _ => none

@[simp] lemma Ticket.goal?_ofGoal {goal : Goal F} {now : ℚ} :
    (Ticket.ofGoal goal now).goal? = some goal := rfl

@[simp] lemma Ticket.goal?_ofSpin {yaw : F} {k : ℕ} {stamp now : ℚ} :
    (Ticket.ofSpin yaw k stamp now).goal? = none := rfl

/-! ### Goals of the ledger -/

section

variable {ts : List (Ticket F)} {f : Ticket F → Ticket F} {g k : ℕ} {gs : List ℕ} {o : Outcome}
  {now : ℚ}

/-- An update that keeps the goals. -/
lemma filterMap_modify (hf : ∀ t, (f t).goal? = t.goal?) :
    (ts.modify g f).filterMap Ticket.goal? = ts.filterMap Ticket.goal? := by
  induction ts generalizing g with
  | nil => simp
  | cons t ts ih =>
    cases g with
    | zero => simp [List.filterMap_cons, hf]
    | succ g => simp [List.filterMap_cons, ih]

@[simp] lemma filterMap_accept : (ts.modify g (Ticket.accept k now)).filterMap Ticket.goal? =
    ts.filterMap Ticket.goal? := filterMap_modify fun _ => rfl

@[simp] lemma filterMap_refuse : (ts.modify g Ticket.refuse).filterMap Ticket.goal? =
    ts.filterMap Ticket.goal? := filterMap_modify fun _ => rfl

@[simp] lemma filterMap_finish : (ts.modify g (Ticket.finish o)).filterMap Ticket.goal? =
    ts.filterMap Ticket.goal? := filterMap_modify fun _ => rfl

@[simp] lemma filterMap_cancel : (ts.modify g Ticket.cancel).filterMap Ticket.goal? =
    ts.filterMap Ticket.goal? := filterMap_modify fun _ => rfl

@[simp] lemma filterMap_acknowledge : (ts.modify g Ticket.acknowledge).filterMap Ticket.goal? =
    ts.filterMap Ticket.goal? := filterMap_modify fun _ => rfl

@[simp] lemma filterMap_modifyAll_cancel :
    (modifyAll Ticket.cancel ts gs).filterMap Ticket.goal? = ts.filterMap Ticket.goal? := by
  induction gs generalizing ts with
  | nil => rfl
  | cons g gs ih => rw [modifyAll_cons, ih, filterMap_cancel]

end

namespace World

/-- The goals that were passed to `_send_goal`, in this order. -/
def sentGoals (w : World F) : List (Goal F) := w.tickets.filterMap Ticket.goal?

/-- The outbox of the node. -/
def outbox (w : World F) : Outbox (Goal F) := ⟨w.sentGoals, w.node.pendingGoal⟩

variable [PyFloat F] {cfg : Config F} {w w' : World F} {e : Event F} {es : List (Event F)}
  {goal : Goal F}

/-- The action of the outbox that an event stands for. -/
inductive OutboxAction (cfg : Config F) (w : World F) (e : Event F) :
    Outbox.Action (Goal F) → Prop where
  | idle (ha : w.admitted cfg e = none) : OutboxAction cfg w e .idle
  | send {goal : Goal F} (ha : w.admitted cfg e = some goal) (hg : w.node.activeGoal = none)
      (hs : w.node.activeSpin = none) : OutboxAction cfg w e (.send goal)
  | enqueue {goal : Goal F} (ha : w.admitted cfg e = some goal) (hbusy : w.node.handles ≠ []) :
      OutboxAction cfg w e (.enqueue goal)
  | dispatch (ha : w.admitted cfg e = none) : OutboxAction cfg w e .dispatch
  | discard {now : ℚ} (he : e = .cancelNavigation true now) : OutboxAction cfg w e .discard

/-- Every step is an action of the outbox. -/
theorem Step.outbox (h : Step cfg w e w') :
    ∃ action, OutboxAction cfg w e action ∧ w.outbox.apply action = some w'.outbox := by
  cases h with
  | map | graceCleared | cancelIgnored | feedback => exact ⟨.idle, .idle rfl, rfl⟩
  | goalIgnored hm ha => exact ⟨.idle, .idle ha, rfl⟩
  | goalSent hm ha hg hs =>
    refine ⟨.send _, .send ha hg hs, ?_⟩
    simp [Outbox.apply, World.outbox, sentGoals, Node.sendGoal]
  | goalQueued hm ha hg =>
    refine ⟨.enqueue _, .enqueue ha (by simp [Node.handles, hg]), ?_⟩
    simp [Outbox.apply, World.outbox, sentGoals]
  | goalQueuedSpin hm ha hg hs =>
    refine ⟨.enqueue _, .enqueue ha (by simp [Node.handles, hs]), ?_⟩
    simp [Outbox.apply, World.outbox, sentGoals]
  | cancelHonoured =>
    refine ⟨.discard, .discard rfl, ?_⟩
    simp [Outbox.apply, World.outbox, sentGoals]
  | goalRefused | spinRefused | goalAccepted | spinAccepted | ackIgnored =>
    refine ⟨.idle, .idle rfl, ?_⟩
    simp [Outbox.apply, World.outbox, sentGoals, Node.extendGrace]
  | goalFinished | goalReached | spinFinished =>
    refine ⟨.idle, .idle rfl, ?_⟩
    simp [Outbox.apply, World.outbox, sentGoals, Node.extendGrace,
      Node.clearGoal, Node.clearSpin]
  | goalAcked now ha hc hq | spinAcked now ha hc hq =>
    refine ⟨.idle, .idle rfl, ?_⟩
    simp [Outbox.apply, World.outbox, sentGoals, Node.clearGoal,
      Node.clearSpin]
  | spinFinishedSend tf server now ht hp hk ho hq =>
    refine ⟨.dispatch, .dispatch rfl, ?_⟩
    simp [Outbox.apply, World.outbox, sentGoals, Node.sendGoal, hq]
  | goalAckedSend now ha hc hq | spinAckedSend now ha hc hq =>
    refine ⟨.dispatch, .dispatch rfl, ?_⟩
    simp [Outbox.apply, World.outbox, sentGoals, Node.sendGoal, hq]

/-! ### Goal numbers -/

/-- A goal carries the number of its message. -/
lemma summary_of_admitted (ha : w.admitted cfg e = some goal) : goal.summary = w.steps := by
  simp only [admitted] at ha
  split at ha
  · cases ha
  · split at ha
    · next hok => exact (Node.admitGoal_eq_some (ha ▸ hok)).1
    · cases ha

lemma Step.steps (h : Step cfg w e w') : w'.steps = w.steps + 1 := by cases h <;> rfl

lemma steps_of_run (hrun : Run (step cfg) {} es w) : w.steps = es.length := by
  induction hrun with
  | nil => rfl
  | snoc h he ih => rw [(step_cases he).steps, ih, List.length_append, List.length_singleton]

/-- Goals in the outbox come from messages that were received. -/
def Numbered (w : World F) : Prop := ∀ goal ∈ w.outbox.all, goal.summary < w.steps

lemma Numbered.step (hw : w.Numbered) (h : Step cfg w e w') : w'.Numbered := by
  obtain ⟨action, ha, happly⟩ := h.outbox
  intro goal hgoal
  rw [h.steps]
  rcases Outbox.mem_all_of_apply happly hgoal with hold | hnew
  · exact (hw goal hold).trans (Nat.lt_succ_self _)
  · cases ha with
    | send ha | enqueue ha =>
      obtain rfl := Option.some.inj hnew
      rw [summary_of_admitted ha]
      exact Nat.lt_succ_self _
    | idle | dispatch | discard => cases hnew

/-- A goal that comes in is newer than every goal in the outbox. -/
lemma Numbered.lt_item (hw : w.Numbered) {action : Outbox.Action (Goal F)}
    (ha : OutboxAction cfg w e action) (goal : Goal F) (hitem : action.item = some goal) :
    ∀ old ∈ w.outbox.all, old.summary < goal.summary := by
  intro old hold
  cases ha with
  | send ha | enqueue ha =>
    obtain rfl := Option.some.inj hitem
    exact (summary_of_admitted ha).symm ▸ hw old hold
  | idle | dispatch | discard => cases hitem

omit [PyFloat F] in
lemma numbered_init : Numbered ({} : World F) := by
  intro goal hgoal
  simp [Outbox.all, World.outbox, sentGoals] at hgoal

lemma numbered_of_run (hrun : Run (step cfg) {} es w) : w.Numbered :=
  hrun.invariant_state numbered_init fun _ _ _ hw h => hw.step (step_cases h)

/-! ### Nothing is stranded -/

/-- A goal in the queue waits for an acknowledgement that was requested when it was queued or
later, and that will send it. -/
def Awaited (w : World F) : Prop := ∀ goal, w.node.pendingGoal = some goal →
  ∃ ack ∈ w.acks, ack.callback ≠ .ignore ∧ goal.summary ≤ ack.requestedAt

lemma Awaited.step (hw : w.Awaited) (h : Step cfg w e w') : w'.Awaited := by
  intro goal hq
  cases h with
  | goalQueued hm ha | goalQueuedSpin hm ha =>
    obtain rfl := Option.some.inj hq
    refine ⟨_, List.mem_append_right _ (List.mem_singleton_self _), by simp, ?_⟩
    exact (summary_of_admitted ha).le
  | cancelHonoured => simp at hq
  | goalSent | goalFinished | goalReached =>
    exact hw goal (by simpa [Node.sendGoal, Node.clearGoal, Node.extendGrace] using hq)
  | goalAcked _ _ _ hq' | spinAcked _ _ _ hq' => cases hq'.symm.trans hq
  | spinFinishedSend | goalAckedSend | spinAckedSend => cases hq
  | ackIgnored _ _ hc =>
    obtain ⟨ack, hack, hcb, hle⟩ := hw goal hq
    refine ⟨ack, (List.mem_erase_of_ne ?_).mpr hack, hcb, hle⟩
    rintro rfl
    exact hcb hc
  | _ => exact hw goal hq

omit [PyFloat F] in
lemma awaited_init : Awaited ({} : World F) := fun _ h => by cases h

lemma awaited_of_run (hrun : Run (step cfg) {} es w) : w.Awaited :=
  hrun.invariant_state awaited_init fun _ _ _ hw h => hw.step (step_cases h)

/-- The acknowledgement that a queued goal waits for sends it. -/
lemma step_cancelAck_of_pending (cfg : Config F) {ack : Ack} (hack : ack ∈ w.acks)
    (hc : ack.callback ≠ .ignore) (hq : w.node.pendingGoal = some goal) (now : ℚ) :
    ∃ w', w.step cfg (.cancelAck ack now) = some w' ∧ w'.node.pendingGoal = none ∧
      w'.sentGoals = w.sentGoals ++ [goal] := by
  obtain ⟨w', hw'⟩ : ∃ w', w.step cfg (.cancelAck ack now) = some w' := by
    simp [step, receiveAck, hack]
  refine ⟨w', hw', ?_⟩
  cases step_cases hw' with
  | goalAcked _ _ _ hq' | spinAcked _ _ _ hq' => cases hq'.symm.trans hq
  | goalAckedSend _ _ _ hq' | spinAckedSend _ _ _ hq' =>
    obtain rfl := Option.some.inj (hq.symm.trans hq')
    exact ⟨rfl, by simp [sentGoals]⟩
  | ackIgnored _ _ hc' => exact absurd hc' hc
  | _ => contradiction

/-! ### No goal is lost -/

/-- The event is a message whose goal passes the filters. -/
def Receives (cfg : Config F) (goal : Goal F) (w : World F) (e : Event F) (_ : World F) : Prop :=
  w.admitted cfg e = some goal

/-- A later goal takes the place of a queued one. -/
def Overwrites (cfg : Config F) (goal : Goal F) (w : World F) (e : Event F) (w' : World F) :
    Prop :=
  w.node.pendingGoal = some goal ∧ ∃ later, w.admitted cfg e = some later ∧
    goal.summary < later.summary ∧ w'.node.pendingGoal = some later

/-- `cancel_navigation=True` drops a queued goal. -/
def Discards (goal : Goal F) (w : World F) (e : Event F) (w' : World F) : Prop :=
  w.node.pendingGoal = some goal ∧ (∃ now, e = .cancelNavigation true now) ∧
    w'.node.pendingGoal = none

/-- What can have become of a goal that was received. -/
def Accounted (cfg : Config F) (es : List (Event F)) (w : World F) (goal : Goal F) : Prop :=
  goal ∈ w.sentGoals ∨ w.node.pendingGoal = some goal ∨
    Occurs (step cfg) {} (Overwrites cfg goal) es ∨ Occurs (step cfg) {} (Discards goal) es

/-- A goal that is received comes into the outbox. -/
lemma OutboxAction.item {action : Outbox.Action (Goal F)} (h : OutboxAction cfg w e action)
    (ha : w.admitted cfg e = some goal) : action.item = some goal := by
  cases h with
  | send ha' | enqueue ha' => exact ha'.symm.trans ha
  | idle ha' | dispatch ha' => cases ha'.symm.trans ha
  | discard he =>
    subst he
    cases ha

lemma accounted_iff : Accounted cfg es w goal ↔ goal ∈ w.outbox.all ∨
    Occurs (step cfg) {} (Overwrites cfg goal) es ∨
      Occurs (step cfg) {} (Discards goal) es := by
  rw [Outbox.mem_all, or_assoc]
  rfl

/-- A goal of the outbox is accounted for after one more step. -/
lemma accounted_snoc (hrun : Run (step cfg) {} es w) (he : step cfg w e = some w')
    (hgoal : goal ∈ w.outbox.all) : Accounted cfg (es ++ [e]) w' goal := by
  obtain ⟨action, ha, happly⟩ := (step_cases he).outbox
  rw [accounted_iff]
  rcases Outbox.mem_of_apply happly hgoal with hgoal' | ⟨hq, ⟨later, rfl, hq'⟩ | ⟨rfl, hq'⟩⟩
  · exact Or.inl hgoal'
  · refine Or.inr (Or.inl (occurs_last hrun he ⟨hq, later, ?_, ?_, hq'⟩))
    · cases ha with
      | enqueue ha => exact ha
    · exact (numbered_of_run hrun).lt_item ha _ rfl goal hgoal
  · refine Or.inr (Or.inr (occurs_last hrun he ⟨hq, ?_, hq'⟩))
    cases ha with
    | discard he => exact ⟨_, he⟩

lemma accounted_of_receives (hrun : Run (step cfg) {} es w)
    (h : Occurs (step cfg) {} (Receives cfg goal) es) : Accounted cfg es w goal := by
  induction hrun with
  | nil => simp at h
  | @snoc es w w' e hrun he ih =>
    rcases (occurs_snoc_iff hrun he).mp h with hold | hnew
    · rcases accounted_iff.mp (ih hold) with hgoal | hover | hdrop
      · exact accounted_snoc hrun he hgoal
      · exact Or.inr (Or.inr (Or.inl (hover.append [e])))
      · exact Or.inr (Or.inr (Or.inr (hdrop.append [e])))
    · obtain ⟨action, ha, happly⟩ := (step_cases he).outbox
      exact accounted_iff.mpr (Or.inl (Outbox.item_mem_all happly (ha.item hnew)))

/-- The goals of the outbox come from different messages. -/
lemma outbox_nodup_of_run (hrun : Run (step cfg) {} es w) :
    w.outbox.all.Pairwise fun a b => a.summary ≠ b.summary := by
  induction hrun with
  | nil => exact List.Pairwise.nil
  | snoc hrun he ih =>
    obtain ⟨action, ha, happly⟩ := (step_cases he).outbox
    have hlt {a : Goal F} := (numbered_of_run hrun).lt_item ha a
    refine Outbox.pairwise_apply happly ih (fun a hitem b hb => (hlt hitem b hb).ne) ?_
    rintro a rfl b hb
    exact (hlt rfl b (Outbox.mem_all.mpr (Or.inr hb))).ne'

/-- No goal is lost, sent twice or stranded. A goal that passes the filters has the number of
its message. It is sent, waits, was overwritten by a later goal or was dropped by the operator;
no two goals that were sent have one number; and whenever a goal waits, an acknowledgement that
was requested no earlier is under way, and it will send the goal. -/
theorem goals_accounted (hrun : Run (step cfg) {} es w) :
    (∀ pre e post u goal, es = pre ++ e :: post → Run (step cfg) {} pre u →
      u.admitted cfg e = some goal → goal.summary = pre.length ∧ Accounted cfg es w goal) ∧
    (w.sentGoals.map Goal.summary).Nodup ∧
    ∀ goal, w.node.pendingGoal = some goal → ∃ ack ∈ w.acks, goal.summary ≤ ack.requestedAt ∧
      ∀ now, ∃ w', w.step cfg (.cancelAck ack now) = some w' ∧
        w'.sentGoals = w.sentGoals ++ [goal] := by
  refine ⟨?_, ?_, ?_⟩
  · intro pre e post u goal hes hu ha
    refine ⟨by rw [summary_of_admitted ha, steps_of_run hu], ?_⟩
    obtain ⟨v, hv, hvw⟩ := run_append_iff.mp (hes ▸ hrun)
    obtain ⟨u', hu', -⟩ := run_cons_iff.mp hvw
    rw [hv.unique hu] at hu'
    exact accounted_of_receives hrun ⟨pre, e, post, u, u', hes, hu, hu', ha⟩
  · have hall := outbox_nodup_of_run hrun
    rw [List.Nodup, List.pairwise_map]
    exact (List.pairwise_append.mp hall).1
  · intro goal hq
    obtain ⟨ack, hack, hc, hle⟩ := awaited_of_run hrun goal hq
    refine ⟨ack, hack, hle, fun now => ?_⟩
    obtain ⟨w', hw', -, hsent⟩ := step_cancelAck_of_pending cfg hack hc hq now
    exact ⟨w', hw', hsent⟩

section

attribute [local instance] PyFloat.exact

/-- A second click waits while the first goal is being cancelled. -/
theorem goals_accounted_waiting : ∃ w, Run (step .defaults) {}
      [.click 1 100 101, .response 0 .accepted 102, .click 2 103 104] w ∧
    w.node.pendingGoal.isSome = true ∧
    (∀ pre e post u goal, [.click 1 100 101, .response 0 .accepted 102, .click 2 103 104] =
        pre ++ e :: post → Run (step .defaults) {} pre u → u.admitted .defaults e = some goal →
      goal.summary = pre.length ∧ Accounted .defaults
        [.click 1 100 101, .response 0 .accepted 102, .click 2 103 104] w goal) ∧
    (w.sentGoals.map Goal.summary).Nodup ∧
    ∀ goal, w.node.pendingGoal = some goal → ∃ ack ∈ w.acks, goal.summary ≤ ack.requestedAt ∧
      ∀ now, ∃ w', w.step .defaults (.cancelAck ack now) = some w' ∧
        w'.sentGoals = w.sentGoals ++ [goal] := by
  obtain ⟨w, hw, hq⟩ := exists_run (step .defaults) {}
    [.click 1 100 101, .response 0 .accepted 102, .click 2 103 104]
    (fun w => w.node.pendingGoal.isSome = true) (by decide +kernel)
  exact ⟨w, hw, hq, goals_accounted hw⟩

end

end World
end GoalNav
