import HumanoidNavigation.GoalNav.Outstanding
import HumanoidNavigation.GoalNav.Queue

/-!
# Result attribution

`_on_result` takes the pose and the stamp of the goal that succeeded from two shared fields.
`Disturbs` lists the callbacks that change these fields. As long as no such callback comes between
the sending of a goal and its SUCCEEDED result, the fields are the goal's own, and so are the
remembered stamp and the final spin; `results_attributed` proves this over whole runs.
-/

namespace GoalNav

open Ledger Transition

variable {F : Type}

/-- A `NavigateToPose` goal that succeeded. -/
def Ticket.Reached (goal : Goal F) (t : Ticket F) : Prop :=
  t.goal? = some goal ∧ t.phase = .finished (.status .succeeded)

namespace World

variable [PyFloat F]

/-- The callback changes the stored pose or the stored stamp. -/
inductive Disturbs (cfg : Config F) (w : World F) : Event F → Prop where
  | sends {e : Event F} (h : Sends cfg w e) : Disturbs cfg w e
  | result {g : ℕ} {t : Ticket F} (o : Outcome) (tf : TfBuffer F) (server : Bool) (now : ℚ)
      (ht : w.tickets[g]? = some t) (hk : t.isSpin = false) :
      Disturbs cfg w (.result g o tf server now)
  | cancelAck {ack : Ack} (now : ℚ) (hc : ack.callback = .onCancelDone) :
      Disturbs cfg w (.cancelAck ack now)
  | cancelled {g : ℕ} {now : ℚ} (hg : w.node.activeGoal = some g)
      (hnow : w.node.cancelIgnoreUntil ≤ now) : Disturbs cfg w (.cancelNavigation true now)
  | spinAccepted {g : ℕ} {t : Ticket F} (now : ℚ) (ht : w.tickets[g]? = some t)
      (hk : t.isSpin = true) (hs : t.sourceStamp ≠ w.node.activeGoalSourceStamp) :
      Disturbs cfg w (.response g .accepted now)

omit [PyFloat F] in
/-- The step sends the goal `g`. -/
def SendsGoal (g : ℕ) (w : World F) (_ : Event F) (w' : World F) : Prop :=
  g = w.tickets.length ∧ At (fun t => t.isSpin = false) w'.tickets g

/-- The stored pose and stamp were not changed since the goal `g` was sent. -/
def Undisturbed (cfg : Config F) (g : ℕ) (es : List (Event F)) : Prop :=
  Since (step cfg) {} (SendsGoal g) (fun w e => ¬Disturbs cfg w e) es

omit [PyFloat F] in
/-- The stored pose and stamp are those of the goal `g`. -/
def Stores (w : World F) (g : ℕ) : Prop :=
  ∃ goal, At (fun t => t.goal? = some goal) w.tickets g ∧
    w.node.activeGoalPose = some goal.pose ∧ w.node.activeGoalSourceStamp = goal.sourceStamp

/-- The spin of the ticket `t` is for a goal that succeeded, and it makes up for the difference
between the yaw of that goal and the heading at that time. -/
def SpinOwned (cfg : Config F) (w : World F) (t : Ticket F) : Prop :=
  ∃ g goal tf heading yaw, At (Ticket.Reached goal) w.tickets g ∧
    Node.currentHeadingYaw cfg tf = some heading ∧
    angleDiff (yawFromQuaternion goal.pose.orientation) heading = .ok yaw ∧
    t.request = .spin yaw ∧ t.summary = goal.summary ∧ t.sourceStamp = goal.sourceStamp

variable {cfg : Config F} {w w' : World F} {e : Event F} {es fs : List (Event F)} {g : ℕ}
  {goal : Goal F} {t t' : Ticket F}

/-! ### What stays -/

/-- A callback that does not disturb the stored data leaves it. -/
lemma Step.stored_eq (h : Step cfg w e w') (hno : ¬Disturbs cfg w e) :
    w'.node.activeGoalPose = w.node.activeGoalPose ∧
      w'.node.activeGoalSourceStamp = w.node.activeGoalSourceStamp := by
  cases h with
  | goalSent hm ha hg hs => exact absurd (.sends (.goal ha hg hs)) hno
  | spinFinishedSend tf server now ht hp hk ho hq =>
    exact absurd (.sends (.spinResult tf server now ht hk ho hq)) hno
  | goalFinished tf server now ht hp hk => exact absurd (.result _ tf server now ht hk) hno
  | goalReached ht hp hk => exact absurd (.result _ _ _ _ ht hk) hno
  | goalAcked now ha hc | goalAckedSend now ha hc => exact absurd (.cancelAck now hc) hno
  | spinAckedSend now ha hc hq =>
    exact absurd (.sends (.cancelAck now (by simp [hc]) hq)) hno
  | cancelHonoured hnow =>
    have hg : w.node.activeGoal = none :=
      Option.eq_none_iff_forall_ne_some.mpr fun g hg => hno (.cancelled hg hnow)
    exact ⟨Node.cancelAll_activeGoalPose hg, Node.cancelAll_activeGoalSourceStamp⟩
  | spinAccepted now ht hp hk =>
    exact ⟨rfl, not_not.mp fun hs => hno (.spinAccepted now ht hk hs)⟩
  | _ => exact ⟨rfl, rfl⟩

lemma TicketStep.goal? (h : TicketStep w e g t t') : t'.goal? = t.goal? := by
  cases h <;> rfl

lemma Step.at_goal? (h : Step cfg w e w') (hg : At (fun t => t.goal? = some goal) w.tickets g) :
    At (fun t => t.goal? = some goal) w'.tickets g := by
  obtain ⟨t, ht, hgoal⟩ := hg
  obtain ⟨t', ht', hstep⟩ := h.ticket_next ht
  exact ⟨t', ht', hstep.goal?.trans hgoal⟩

lemma Step.at_reached (h : Step cfg w e w') (hg : At (Ticket.Reached goal) w.tickets g) :
    At (Ticket.Reached goal) w'.tickets g := by
  obtain ⟨t, ht, hgoal, hp⟩ := hg
  obtain ⟨t', ht', hstep⟩ := h.ticket_next ht
  refine ⟨t', ht', hstep.goal?.trans hgoal, ?_⟩
  cases hstep with
  | same | cancelled | acknowledged => exact hp
  | accepted _ hp' | refused _ _ hp' | finished _ hp' => cases hp'.symm.trans hp

/-- Sending a goal stores its data. -/
lemma Step.stores_of_sendsGoal (h : Step cfg w e w') (hg : SendsGoal g w e w') :
    w'.Stores g := by
  obtain ⟨rfl, hnav⟩ := hg
  have sent {ts : List (Ticket F)} {goal : Goal F} {now : ℚ} (hlen : ts.length = w.tickets.length) :
      At (fun t => t.goal? = some goal) (ts ++ [Ticket.ofGoal goal now]) w.tickets.length := by
    rw [← hlen, at_concat_length]
    rfl
  cases h with
  | goalSent => exact ⟨_, sent rfl, rfl, rfl⟩
  | spinFinishedSend | goalAckedSend | spinAckedSend =>
    exact ⟨_, sent (by simp), rfl, rfl⟩
  | goalReached =>
    -- the new request is a spin
    rw [next_tickets, ← List.length_modify (f := Ticket.finish (.status .succeeded)) (i := _),
      at_concat_length] at hnav
    cases hnav
  | _ =>
    have := hnav.lt
    simp at this

lemma stores_of_undisturbed (hrun : Run (step cfg) {} es w) (hg : Undisturbed cfg g es) :
    w.Stores g := by
  induction hrun with
  | nil => exact absurd hg not_since_nil
  | snoc hrun he ih =>
    rcases (since_snoc_iff hrun he).mp hg with hsend | ⟨hsince, hno⟩
    · exact (step_cases he).stores_of_sendsGoal hsend
    · obtain ⟨goal, hgoal, hpose, hstamp⟩ := ih hsince
      obtain ⟨hpose', hstamp'⟩ := (step_cases he).stored_eq hno
      exact ⟨goal, (step_cases he).at_goal? hgoal, hpose'.trans hpose, hstamp'.trans hstamp⟩

/-! ### Whole runs -/

/-- Between the sending of a goal and its SUCCEEDED result, nothing disturbs the stored data. -/
def ResultsUndisturbed (cfg : Config F) (es : List (Event F)) : Prop :=
  ∀ ⦃pre g tf server now post u⦄,
    es = pre ++ .result g (.status .succeeded) tf server now :: post → Run (step cfg) {} pre u →
      At (fun t => t.isSpin = false) u.tickets g → Undisturbed cfg g pre

lemma ResultsUndisturbed.of_append (h : ResultsUndisturbed cfg (es ++ fs)) :
    ResultsUndisturbed cfg es := by
  intro pre g tf server now post u hes hu hg
  exact h (by rw [hes, List.append_assoc, List.cons_append]) hu hg

/-- The last stamp of a goal that was reached is that of a goal that succeeded. -/
def StampOwned (w : World F) : Prop := w.node.lastSucceededSourceStamp = -1 ∨
  ∃ g goal, At (Ticket.Reached goal) w.tickets g ∧
    goal.sourceStamp = w.node.lastSucceededSourceStamp

/-- Every final spin is for a goal that succeeded. -/
def SpinsOwned (cfg : Config F) (w : World F) : Prop :=
  ∀ (s : ℕ) (t : Ticket F), w.tickets[s]? = some t → t.isSpin = true → w.SpinOwned cfg t

/-- Only the result of a goal that succeeded changes the remembered stamp. -/
lemma Step.lastSucceeded_cases (h : Step cfg w e w') :
    w'.node.lastSucceededSourceStamp = w.node.lastSucceededSourceStamp ∨
    ∃ g t tf server now, e = .result g (.status .succeeded) tf server now ∧
      w.tickets[g]? = some t ∧ t.isSpin = false ∧
      w'.node.lastSucceededSourceStamp = w.node.activeGoalSourceStamp := by
  cases h with
  | @goalFinished g t o tf server now ht hp hk hs =>
    by_cases ho : o = .status .succeeded
    · subst ho
      refine Or.inr ⟨g, t, tf, server, now, rfl, ht, hk, ?_⟩
      simp [Node.clearGoal, Node.recordResult_lastSucceededSourceStamp]
    · refine Or.inl ?_
      simp [Node.clearGoal, Node.recordResult_lastSucceededSourceStamp, ho]
  | goalReached ht hp hk =>
    refine Or.inr ⟨_, _, _, _, _, rfl, ht, hk, ?_⟩
    simp [Node.clearGoal, Node.extendGrace, Node.recordResult_lastSucceededSourceStamp]
  | cancelHonoured => exact Or.inl (by simp)
  | _ => exact Or.inl rfl

/-- Only the result of a goal that succeeded requests a spin. -/
lemma Step.spin_cases {s : ℕ} (h : Step cfg w e w') (ht' : w'.tickets[s]? = some t')
    (hspin : t'.isSpin = true) :
    (∃ t, w.tickets[s]? = some t ∧ t'.request = t.request ∧ t'.summary = t.summary ∧
      t'.sourceStamp = t.sourceStamp) ∨
    ∃ g t tf server now yaw, e = .result g (.status .succeeded) tf server now ∧
      w.tickets[g]? = some t ∧ t.isSpin = false ∧
      Node.SpinNeeded cfg w.node.activeGoalPose tf server yaw ∧
      t' = .ofSpin yaw t.summary w.node.activeGoalSourceStamp now := by
  rcases h.ticket_cases ht' with ⟨t, ht, hstep⟩ | ⟨rfl, hnew⟩
  · refine Or.inl ⟨t, ht, ?_⟩
    cases hstep <;> exact ⟨rfl, rfl, rfl⟩
  · have last {ts : List (Ticket F)} {a : Ticket F} (hlen : ts.length = w.tickets.length)
        (ha : (ts ++ [a])[w.tickets.length]? = some t') : t' = a := by
      rw [← hlen, List.getElem?_concat_length] at ha
      exact (Option.some.inj ha).symm
    cases h with
    | goalReached ht hp hk hs =>
      exact Or.inr ⟨_, _, _, _, _, _, rfl, ht, hk, hs, last (by simp) ht'⟩
    | goalSent =>
      obtain rfl := last rfl ht'
      cases hspin
    | spinFinishedSend | goalAckedSend | spinAckedSend =>
      obtain rfl := last (by simp) ht'
      cases hspin
    | _ =>
      have := (List.getElem?_eq_some_iff.mp ht').1
      simp at this

omit [PyFloat F] in
lemma goal?_eq_some (h : t.goal? = some goal) :
    t.summary = goal.summary ∧ t.sourceStamp = goal.sourceStamp := by
  simp only [Ticket.goal?] at h
  split at h
  · obtain rfl := Option.some.inj h
    exact ⟨rfl, rfl⟩
  · cases h

/-- The goal whose own data is stored when it succeeds. -/
lemma Step.reached_of_stores {tf : TfBuffer F} {server : Bool} {now : ℚ}
    (h : Step cfg w (.result g (.status .succeeded) tf server now) w')
    (hg : At (fun t => t.goal? = some goal) w.tickets g) :
    At (Ticket.Reached goal) w'.tickets g := by
  obtain ⟨t, ht, hgoal⟩ := hg
  exact ⟨_, h.ticket_finished ht, hgoal, rfl⟩

lemma StampOwned.step (hw : w.StampOwned) (h : Step cfg w e w')
    (hres : ∀ g tf server now, e = .result g (.status .succeeded) tf server now →
      At (fun t => t.isSpin = false) w.tickets g → w.Stores g) : w'.StampOwned := by
  rcases h.lastSucceeded_cases with heq | ⟨g, t, tf, server, now, rfl, ht, hk, heq⟩
  · rw [StampOwned, heq]
    refine hw.imp_right ?_
    rintro ⟨g, goal, hg, hstamp⟩
    exact ⟨g, goal, h.at_reached hg, hstamp⟩
  · obtain ⟨goal, hgoal, -, hstamp⟩ := hres g tf server now rfl ⟨t, ht, hk⟩
    exact Or.inr ⟨g, goal, h.reached_of_stores hgoal, by rw [heq, hstamp]⟩

lemma SpinsOwned.step (hw : w.SpinsOwned cfg) (h : Step cfg w e w')
    (hres : ∀ g tf server now, e = .result g (.status .succeeded) tf server now →
      At (fun t => t.isSpin = false) w.tickets g → w.Stores g) : w'.SpinsOwned cfg := by
  intro s t' ht' hspin
  rcases h.spin_cases ht' hspin with ⟨t, ht, hreq, hsum, hstamp⟩ |
    ⟨g, t, tf, server, now, yaw, rfl, ht, hk, hs, rfl⟩
  · have hspin₀ : t.isSpin = true := by rw [← hspin, Ticket.isSpin, Ticket.isSpin, hreq]
    obtain ⟨g, goal, tf, heading, yaw, hg, hhead, hyaw, hreq₀, hsum₀, hstamp₀⟩ :=
      hw s t ht hspin₀
    exact ⟨g, goal, tf, heading, yaw, h.at_reached hg, hhead, hyaw, hreq.trans hreq₀,
      hsum.trans hsum₀, hstamp.trans hstamp₀⟩
  · obtain ⟨goal, hgoal, hpose, hstamp⟩ := hres g tf server now rfl ⟨t, ht, hk⟩
    obtain ⟨pose, heading, hpose', hhead, hyaw⟩ := hs.towards
    obtain rfl := Option.some.inj (hpose.symm.trans hpose')
    have hsum := (goal?_eq_some ((at_of_getElem? ht).mp hgoal)).1
    exact ⟨g, goal, tf, heading, yaw, h.reached_of_stores hgoal, hhead, hyaw, rfl, hsum, hstamp⟩

/-- In a run in which nothing comes between a goal and its SUCCEEDED result, each such result
finds the pose and the stamp of its own goal, the remembered stamp is that of a goal that
succeeded, and so is the goal of every final spin. -/
theorem results_attributed (hrun : Run (step cfg) {} es w) (hres : ResultsUndisturbed cfg es) :
    (∀ pre g tf server now post u,
      es = pre ++ .result g (.status .succeeded) tf server now :: post →
      Run (step cfg) {} pre u → At (fun t => t.isSpin = false) u.tickets g → u.Stores g) ∧
    w.StampOwned ∧ w.SpinsOwned cfg := by
  refine ⟨?_, ?_⟩
  · intro pre g tf server now post u hes hu hg
    exact stores_of_undisturbed hu (hres hes hu hg)
  · induction hrun with
    | nil => exact ⟨Or.inl rfl, fun s t ht => by simp at ht⟩
    | @snoc es w w' e hrun he ih =>
      obtain ⟨hstamp, hspins⟩ := ih hres.of_append
      have hstores : ∀ g tf server now, e = .result g (.status .succeeded) tf server now →
          At (fun t => t.isSpin = false) w.tickets g → w.Stores g := by
        rintro g tf server now rfl hg
        exact stores_of_undisturbed hrun (hres rfl hrun hg)
      exact ⟨hstamp.step (step_cases he) hstores, hspins.step (step_cases he) hstores⟩

section

attribute [local instance] PyFloat.exact

/-- A goal that is accepted and succeeds. -/
theorem results_attributed_single : ∃ w, Run (step .defaults) {}
      [.click 1 100 101, .response 0 .accepted 102,
        .result 0 (.status .succeeded) (fun _ _ => none) true 110] w ∧
    (∀ pre g tf server now post u, [.click 1 100 101, .response 0 .accepted 102,
        .result 0 (.status .succeeded) (fun _ _ => none) true 110] =
        pre ++ .result g (.status .succeeded) tf server now :: post →
      Run (step .defaults) {} pre u → At (fun t => t.isSpin = false) u.tickets g →
        u.Stores g) ∧
    w.StampOwned ∧ w.SpinsOwned .defaults := by
  obtain ⟨w, hw, -⟩ := exists_run (step .defaults) {}
    [.click 1 100 101, .response 0 .accepted 102,
      .result 0 (.status .succeeded) (fun _ _ => none) true 110]
    (fun w => w.node.lastSucceededSourceStamp = 100) (by decide +kernel)
  refine ⟨w, hw, results_attributed hw ?_⟩
  intro pre g tf server now post u hes hu hg
  rcases pre with _ | ⟨e₁, _ | ⟨e₂, _ | ⟨e₃, pre⟩⟩⟩
  · cases hes
  · cases hes
  · cases hes
    obtain ⟨u₁, hu₁, hnav⟩ := exists_run (step .defaults) {}
      [.click 1 100 101]
      (fun w => At (fun t => t.isSpin = false) w.tickets 0) (by decide +kernel)
    replace hu : Run (step .defaults) {}
        ([.click 1 100 101] ++ [.response 0 .accepted 102]) u := hu
    obtain ⟨u₁', hu₁', he⟩ := run_snoc_iff.mp hu
    obtain rfl := hu₁.unique hu₁'
    have hsince : Undisturbed .defaults 0 [Event.click 1 100 101] := by
      replace hu₁ : Run (step .defaults) {} ([] ++ [.click 1 100 101]) u₁ := hu₁
      obtain ⟨u₀, hu₀, he₀⟩ := run_snoc_iff.mp hu₁
      obtain rfl := run_nil_iff.mp hu₀
      exact (since_snoc_iff Run.nil he₀).mpr (Or.inl ⟨rfl, hnav⟩)
    refine (since_snoc_iff hu₁ he).mpr (Or.inr ⟨hsince, ?_⟩)
    rintro (h | _ | _ | _ | ⟨_, ht, hk, -⟩)
    · exact h.ne_response rfl
    · cases ((at_of_getElem? ht).mp hnav).symm.trans hk
  · simp at hes

/-- Two goals are sent before the responses; the first one succeeds, and the stamp of the second
one is remembered. -/
theorem second_stamp_remembered : ∃ w, Run (step .defaults) {}
    [.click 1 100 101, .click 2 102 103, .response 0 .accepted 104,
      .result 0 (.status .succeeded) (fun _ _ => none) true 105] w ∧ ¬w.StampOwned := by
  obtain ⟨w, hw, hlast, hall⟩ := exists_run (step .defaults) {}
    [.click 1 100 101, .click 2 102 103, .response 0 .accepted 104,
      .result 0 (.status .succeeded) (fun _ _ => none) true 105]
    (fun w => w.node.lastSucceededSourceStamp = 102 ∧
      ∀ t ∈ w.tickets, t.phase = .finished (.status .succeeded) → t.sourceStamp = 100)
    (by decide +kernel)
  refine ⟨w, hw, ?_⟩
  rintro (h | ⟨g, goal, ⟨t, ht, hgoal, hp⟩, hstamp⟩)
  · rw [hlast] at h
    exact absurd h (by decide +kernel)
  · have := hall t (List.mem_of_getElem? ht) hp
    rw [(goal?_eq_some hgoal).2, hstamp, hlast] at this
    exact absurd this (by decide +kernel)

end

end World
end GoalNav
