import HumanoidNavigation.GoalNav.Attribution

/-!
# Duplicate goals

`_on_goal` drops a goal message by three filters: the stamp of the goal that was reached last, the
pose that was sent last, for a few seconds, and the pose of the goal that is pursued. The last two
look at fields that the end of a goal need not clear. `drops_justified` says that a message is
dropped only for a goal that is outstanding, queued or reached, as long as the goal that was sent
last is outstanding whenever a message repeats it, replays of a goal that succeeded apart (`Clear`).
-/

namespace GoalNav

open Ledger Transition

variable {F : Type}

/-- A spin that is unanswered or accepted, with no acknowledged cancel and no result. -/
structure Ticket.OpenSpin (t : Ticket F) : Prop where
  isSpin : t.isSpin = true
  phase : t.phase = .requested ∨ t.phase = .accepted
  cancelAcked : t.cancelAcked = false

lemma Ticket.OpenSpin.outstanding {t : Ticket F} (h : t.OpenSpin) : t.Outstanding :=
  h.phase.imp_right fun hp => ⟨hp, h.cancelAcked⟩

namespace World

variable [PyFloat F]

/-- A goal message that is not stale and has a transform, with the pose in the map frame. -/
def Arrives (cfg : Config F) (e : Event F) (pose : PoseStamped F) (stamp now : ℚ) : Prop :=
  ∃ msg tf sendAt source, e.goalMessage = some (msg, tf, now, sendAt) ∧
    ¬(0 < msg.stamp.seconds ∧ now - msg.stamp.seconds > cfg.goalFreshS) ∧
    goalInFrame tf { msg with frameId := normalizeFrame msg.frameId } "map" = .ok (some source) ∧
    pose = Node.dropStampAndYaw cfg source ∧ stamp = msg.stamp.seconds

/-- The spin `k` was sent when the node left the goal pose `p`. -/
def SpunFor (cfg : Config F) (k : ℕ) (p : PoseStamped F) (es : List (Event F)) : Prop :=
  Occurs (step cfg) {} (fun w _ w' => k = w.tickets.length ∧
    At (fun t => t.isSpin = true) w'.tickets k ∧ w.node.activeGoalPose = some p) es

/-- A goal or a final spin at this position is requested, active or queued. -/
inductive Occupied (cfg : Config F) (es : List (Event F)) (w : World F) (pose : PoseStamped F) :
    Prop where
  | goal {g : ℕ} {goal : Goal F} (hg : At (fun t => t.goal? = some goal) w.tickets g)
      (hout : At Ticket.Outstanding w.tickets g) (h : sameGoal pose goal.pose = true) :
      Occupied cfg es w pose
  | spin {k : ℕ} {p : PoseStamped F} (hk : SpunFor cfg k p es)
      (hout : At Ticket.Outstanding w.tickets k) (h : sameGoal pose p = true) :
      Occupied cfg es w pose
  | queued {goal : Goal F} (hq : w.node.pendingGoal = some goal)
      (h : sameGoal pose goal.pose = true) : Occupied cfg es w pose

omit [PyFloat F] in
/-- A goal with this positive stamp has succeeded. -/
def StampReached (w : World F) (stamp : ℚ) : Prop :=
  0 < stamp ∧ ∃ g goal, At (Ticket.Reached goal) w.tickets g ∧ goal.sourceStamp = stamp

omit [PyFloat F] in
/-- The goal `g` is the one that was sent last. -/
def LastSent (w : World F) (g : ℕ) : Prop :=
  At (fun t => t.isSpin = false) w.tickets g ∧
    ∀ h, g < h → ¬At (fun t => t.isSpin = false) w.tickets h

/-- A message that repeats the position that was sent last, soon after or while a goal handle with
its pose is held, comes only while the goal that was sent last is outstanding, unless it has the
stamp of a goal that succeeded. The positive stamp that a SUCCEEDED result finds is that of its own
goal. -/
structure Clear (cfg : Config F) (w : World F) (e : Event F) : Prop where
  message : ∀ pose stamp now, Arrives cfg e pose stamp now → ¬w.StampReached stamp →
    w.node.lastSentGoalPose.any (sameGoal pose) = true →
    (now - w.node.lastSentGoalTime < cfg.goalDedupS ∨
      w.node.activeGoal.isSome = true ∧ w.node.activeGoalPose.isSome = true) →
    ∀ g, w.LastSent g → At Ticket.Outstanding w.tickets g
  result : ∀ g tf server now, e = .result g (.status .succeeded) tf server now →
    At (fun t => t.isSpin = false) w.tickets g → 0 < w.node.activeGoalSourceStamp →
    At (fun t => t.sourceStamp = w.node.activeGoalSourceStamp) w.tickets g

variable {cfg : Config F} {w w' : World F} {e : Event F} {es : List (Event F)} {g k : ℕ}
  {p pose : PoseStamped F} {stamp now : ℚ} {t t' : Ticket F}

/-! ### What a step does to the remembered poses -/

omit [PyFloat F] in
@[simp] lemma recordResult_lastSentGoalPose {n : Node F} {o : Outcome} :
    (n.recordResult o).lastSentGoalPose = n.lastSentGoalPose := by
  simp only [Node.recordResult]
  split_ifs <;> rfl

omit [PyFloat F] in
@[simp] lemma recordResult_activeSpinGoalPose {n : Node F} {o : Outcome} :
    (n.recordResult o).activeSpinGoalPose = n.activeSpinGoalPose := by
  simp only [Node.recordResult]
  split_ifs <;> rfl

/-- A goal is sent and its pose stored, or the pose that was sent last stays, and the active one
stays or is cleared. -/
lemma Step.sent_cases (h : Step cfg w e w') :
    (w'.node.lastSentGoalPose = w.node.lastSentGoalPose ∧
      (w'.node.activeGoalPose = w.node.activeGoalPose ∨ w'.node.activeGoalPose = none) ∧
      ∀ t, w'.tickets[w.tickets.length]? = some t → t.isSpin = true) ∨
    ∃ goal at', w'.node.lastSentGoalPose = some goal.pose ∧
      w'.node.activeGoalPose = some goal.pose ∧
      w'.tickets[w.tickets.length]? = some (.ofGoal goal at') := by
  have last {ts : List (Ticket F)} {a : Ticket F} (hlen : ts.length = w.tickets.length) :
      (ts ++ [a])[w.tickets.length]? = some a := by
    rw [← hlen, List.getElem?_concat_length]
  have none {ts : List (Ticket F)} (hlen : ts.length = w.tickets.length) (t : Ticket F)
      (ht : ts[w.tickets.length]? = some t) : t.isSpin = true := by
    rw [List.getElem?_eq_none hlen.le] at ht
    cases ht
  cases h with
  | goalSent => exact Or.inr ⟨_, _, rfl, rfl, last rfl⟩
  | spinFinishedSend | goalAckedSend | spinAckedSend =>
    exact Or.inr ⟨_, _, rfl, rfl, last (by simp)⟩
  | goalReached =>
    refine Or.inl ⟨recordResult_lastSentGoalPose, Or.inr rfl, fun t ht => ?_⟩
    obtain rfl := Option.some.inj ((last (by simp)).symm.trans ht)
    rfl
  | goalFinished =>
    exact Or.inl ⟨recordResult_lastSentGoalPose, Or.inr rfl, none (by simp)⟩
  | cancelHonoured =>
    refine Or.inl ⟨by simp [Node.cancelAll_eq], ?_, none (by simp)⟩
    rw [next_node, Node.cancelAll_eq]
    cases w.node.activeGoal with
    | none => exact Or.inl rfl
    | some g => exact Or.inr rfl
  | goalAcked => exact Or.inl ⟨rfl, Or.inr rfl, none (by simp)⟩
  | _ => exact Or.inl ⟨rfl, Or.inl rfl, none (by simp)⟩

/-- The event neither refuses, finishes nor acknowledges a spin. -/
structure LeavesSpins (w : World F) (e : Event F) : Prop where
  response : ∀ g r at', e = .response g r at' → r ≠ .accepted →
    At (fun t => t.isSpin = false) w.tickets g
  result : ∀ g o tf server at', e = .result g o tf server at' →
    At (fun t => t.isSpin = false) w.tickets g
  ack : ∀ ack at', e = .cancelAck ack at' → ack.callback ≠ .onSpinCancelDone

/-- A goal message leaves the spins alone. -/
lemma leavesSpins_of_goalMessage (hm : e.goalMessage.isSome = true) : LeavesSpins w e := by
  refine ⟨?_, ?_, ?_⟩
  · rintro g r at' rfl
    cases hm
  · rintro g o tf server at' rfl
    cases hm
  · rintro ack at' rfl
    cases hm

/-- The pose of a spin is new, or it stays through a step that leaves the spins alone. -/
lemma Step.spinPose_cases (h : Step cfg w e w') (hp : w'.node.activeSpinGoalPose = some p) :
    (w.node.activeGoalPose = some p ∧ w'.acks = w.acks ∧
      At Ticket.OpenSpin w'.tickets w.tickets.length) ∨
    w.node.activeSpinGoalPose = some p ∧ LeavesSpins w e ∧
      ∀ ack ∈ w'.acks, ack ∈ w.acks ∨ ack.callback = .onSpinCancelDone ∨
        w.node.activeGoal = some ack.g := by
  cases h with
  | spinRefused | spinFinished | spinFinishedSend | spinAcked | spinAckedSend => cases hp
  | @goalReached g t yaw tf server now ht hp' hk hs =>
    refine Or.inl ⟨hp, rfl, ?_⟩
    rw [next_tickets, ← List.length_modify (f := Ticket.finish (.status .succeeded)) (i := g),
      at_concat_length]
    exact ⟨rfl, Or.inl rfl, rfl⟩
  | cancelHonoured =>
    rw [next_node, Node.cancelAll_eq] at hp
    cases hs : w.node.activeSpin with
    | some g => simp [hs] at hp
    | none =>
      refine Or.inr ⟨by simpa [hs] using hp, ⟨by simp, by simp, by simp⟩, fun ack hack => ?_⟩
      rcases List.mem_append.mp hack with hack | hack
      · exact Or.inl hack
      · obtain ⟨g, hg, rfl⟩ := List.mem_map.mp hack
        refine Or.inr (Or.inr ?_)
        simpa [Node.handles, hs] using hg
  | goalRefused now ht hp' hk hr =>
    refine Or.inr ⟨hp, ⟨?_, by simp, by simp⟩, fun ack hack => Or.inl hack⟩
    rintro g r at' ⟨⟩ -
    exact ⟨_, ht, hk⟩
  | goalFinished tf server now ht hp' hk =>
    refine Or.inr ⟨?_, ⟨by simp, ?_, by simp⟩, fun ack hack => Or.inl hack⟩
    · rwa [next_node, Node.clearGoal, recordResult_activeSpinGoalPose] at hp
    · rintro g o tf server at' ⟨⟩
      exact ⟨_, ht, hk⟩
  | goalQueued hm ha hg =>
    refine Or.inr ⟨hp, leavesSpins_of_goalMessage hm, fun ack hack => ?_⟩
    rcases List.mem_append.mp hack with hack | hack
    · exact Or.inl hack
    · obtain rfl := List.mem_singleton.mp hack
      exact Or.inr (Or.inr hg)
  | goalQueuedSpin hm ha hg hs =>
    refine Or.inr ⟨hp, leavesSpins_of_goalMessage hm, fun ack hack => ?_⟩
    rcases List.mem_append.mp hack with hack | hack
    · exact Or.inl hack
    · obtain rfl := List.mem_singleton.mp hack
      exact Or.inr (Or.inl rfl)
  | goalIgnored hm | goalSent hm =>
    exact Or.inr ⟨hp, leavesSpins_of_goalMessage hm, fun ack hack => Or.inl hack⟩
  | goalAcked now ha hc | goalAckedSend now ha hc | ackIgnored now ha hc =>
    refine Or.inr ⟨hp, ⟨by simp, by simp, ?_⟩,
      fun ack hack => Or.inl (List.mem_of_mem_erase hack)⟩
    rintro ack at' ⟨⟩ hc'
    cases hc.symm.trans hc'
  | goalAccepted | spinAccepted =>
    refine Or.inr ⟨hp, ⟨?_, by simp, by simp⟩, fun ack hack => Or.inl hack⟩
    rintro g r at' ⟨⟩ hr
    exact absurd rfl hr
  | map | graceCleared | cancelIgnored | feedback =>
    exact Or.inr ⟨hp, ⟨by simp, by simp, by simp⟩, fun ack hack => Or.inl hack⟩

/-! ### What the remembered poses stand for -/

/-- The poses that the filters compare with are those of the goal that was sent last and of a spin
that is outstanding. -/
structure Remembers (cfg : Config F) (es : List (Event F)) (w : World F) : Prop where
  sent : ∀ p, w.node.lastSentGoalPose = some p →
    ∃ g goal, w.LastSent g ∧ At (fun t => t.goal? = some goal) w.tickets g ∧ goal.pose = p
  active : w.node.activeGoalPose = w.node.lastSentGoalPose ∨ w.node.activeGoalPose = none
  spin : ∀ p, w.node.activeSpinGoalPose = some p →
    ∃ k, SpunFor cfg k p es ∧ At Ticket.OpenSpin w.tickets k ∧
      ∀ ack ∈ w.acks, ack.g = k → ack.callback = .onSpinCancelDone

lemma TicketStep.isSpin (h : TicketStep w e g t t') : t'.isSpin = t.isSpin := by
  cases h <;> rfl

lemma Step.at_isSpin {b : Bool} (h : Step cfg w e w')
    (hg : At (fun t => t.isSpin = b) w.tickets g) : At (fun t => t.isSpin = b) w'.tickets g := by
  obtain ⟨t, ht, hb⟩ := hg
  obtain ⟨t', ht', hstep⟩ := h.ticket_next ht
  exact ⟨t', ht', hstep.isSpin.trans hb⟩

/-- When no goal is sent, the last one stays the last one. -/
lemma Step.lastSent (h : Step cfg w e w') (hg : w.LastSent g)
    (hnew : ∀ t, w'.tickets[w.tickets.length]? = some t → t.isSpin = true) : w'.LastSent g := by
  refine ⟨h.at_isSpin hg.1, ?_⟩
  rintro k hk ⟨t', ht', hspin⟩
  rcases h.ticket_cases ht' with ⟨t, ht, hstep⟩ | ⟨rfl, -⟩
  · exact hg.2 k hk ⟨t, ht, hstep.isSpin.symm.trans hspin⟩
  · cases (hnew t' ht').symm.trans hspin

lemma Step.lastSent_new (h : Step cfg w e w')
    (hnew : At (fun t => t.isSpin = false) w'.tickets w.tickets.length) :
    w'.LastSent w.tickets.length := by
  refine ⟨hnew, ?_⟩
  rintro k hk ⟨t', ht', -⟩
  rcases h.ticket_cases ht' with ⟨t, ht, -⟩ | ⟨rfl, -⟩
  · exact absurd (List.getElem?_eq_some_iff.mp ht).1 hk.not_gt
  · exact hk.ne rfl

/-- A spin whose pose stays remembered stays open. -/
lemma Step.openSpin (h : Step cfg w e w')
    (hk : At Ticket.OpenSpin w.tickets k) (hleaves : LeavesSpins w e)
    (hacks : ∀ ack ∈ w.acks, ack.g = k → ack.callback = .onSpinCancelDone) :
    At Ticket.OpenSpin w'.tickets k := by
  obtain ⟨t, ht, hopen⟩ := hk
  obtain ⟨t', ht', hstep⟩ := h.ticket_next ht
  refine ⟨t', ht', ?_⟩
  cases hstep with
  | same | cancelled => exact ⟨hopen.isSpin, hopen.phase, hopen.cancelAcked⟩
  | accepted => exact ⟨hopen.isSpin, Or.inr rfl, hopen.cancelAcked⟩
  | refused he hr hp =>
    have hnav := (at_of_getElem? ht).mp (hleaves.response _ _ _ he hr)
    cases hopen.isSpin.symm.trans hnav
  | finished he hp =>
    have hnav := (at_of_getElem? ht).mp (hleaves.result _ _ _ _ _ he)
    cases hopen.isSpin.symm.trans hnav
  | acknowledged he ha hg => exact absurd (hacks _ ha hg) (hleaves.ack _ _ he)

lemma Remembers.step (hw : w.Remembers cfg es) (hcoh : w.Coherent) (hrun : Run (step cfg) {} es w)
    (he : w.step cfg e = some w') : w'.Remembers cfg (es ++ [e]) := by
  have h := step_cases he
  refine ⟨?_, ?_, ?_⟩
  · intro p hp
    rcases h.sent_cases with ⟨hsent, -, hnew⟩ | ⟨goal, at', hsent, -, hnew⟩
    · obtain ⟨g, goal, hg, hgoal, rfl⟩ := hw.sent p (hsent ▸ hp)
      exact ⟨g, goal, h.lastSent hg hnew, h.at_goal? hgoal, rfl⟩
    · obtain rfl := Option.some.inj (hsent.symm.trans hp)
      exact ⟨_, goal, h.lastSent_new ⟨_, hnew, rfl⟩, ⟨_, hnew, rfl⟩, rfl⟩
  · rcases h.sent_cases with ⟨hsent, hactive | hactive, -⟩ | ⟨goal, at', hsent, hactive, -⟩
    · rw [hactive, hsent]
      exact hw.active
    · exact Or.inr hactive
    · exact Or.inl (hactive.trans hsent.symm)
  · intro p hp
    rcases h.spinPose_cases hp with ⟨hpose, hacks, hnew⟩ | ⟨hpose, hleaves, hacks⟩
    · refine ⟨_, occurs_last hrun he ⟨rfl, hnew.imp fun t ht => ht.isSpin, hpose⟩, hnew, ?_⟩
      intro ack hmem heq
      rw [hacks] at hmem
      exact absurd heq (hcoh.ack ack hmem).lt.ne
    · obtain ⟨k, hfor, hopen, hk⟩ := hw.spin p hpose
      refine ⟨k, hfor.append [e], h.openSpin hopen hleaves hk, ?_⟩
      intro ack hmem heq
      rcases hacks ack hmem with hold | hc | hg
      · exact hk ack hold heq
      · exact hc
      · have hlive := hcoh.handle false ack.g hg
        exact ((heq ▸ hlive).elim hopen fun t hlive hopen => by
          cases hlive.1.symm.trans hopen.isSpin).elim

lemma remembers_of_run (hrun : Run (step cfg) {} es w) : w.Remembers cfg es := by
  induction hrun with
  | nil => exact ⟨nofun, Or.inl rfl, nofun⟩
  | snoc hrun he ih => exact ih.step (coherent_of_run hrun) hrun he

/-! ### Dropped messages -/

lemma step_eq_receiveGoal {msg : PoseStamped F} {tf : TfBuffer F} {sendAt : ℚ}
    (hmsg : e.goalMessage = some (msg, tf, now, sendAt)) :
    w.step cfg e = w.receiveGoal cfg msg tf now sendAt := by
  cases e with
  | goalPose | clickedPoint =>
    cases hmsg
    rfl
  | _ => cases hmsg

/-- A message that is dropped is a duplicate for one of the filters. -/
lemma isDuplicate_of_dropped (harrives : Arrives cfg e pose stamp now)
    (he : w.step cfg e = some w') (hdrop : w.admitted cfg e = none) :
    w.node.isDuplicate cfg pose stamp now = true := by
  obtain ⟨msg, tf, sendAt, source, hmsg, hfresh, hin, rfl, rfl⟩ := harrives
  rw [step_eq_receiveGoal hmsg] at he
  simp only [receiveGoal, Node.onGoal, admitted, hmsg, Node.admitGoal, if_neg hfresh, hin, bind,
    Except.bind] at he hdrop
  cases hcell : mapCellSummary w.node.map (Node.dropStampAndYaw cfg source) with
  | error err =>
    rw [hcell] at he
    cases he
  | ok c =>
    rw [hcell] at hdrop
    by_contra hdup
    rw [Bool.not_eq_true] at hdup
    simp [hdup, pure, Except.pure] at hdrop

/-- A duplicate repeats the stamp that was reached last, the pose that was sent last or the pose of
a spin. -/
lemma duplicate_cases {n : Node F} (hactive : n.activeGoalPose = n.lastSentGoalPose ∨
      n.activeGoalPose = none) (h : n.isDuplicate cfg pose stamp now = true) :
    (0 < stamp ∧ stamp = n.lastSucceededSourceStamp) ∨
    (n.lastSentGoalPose.any (sameGoal pose) = true ∧
      (now - n.lastSentGoalTime < cfg.goalDedupS ∨
        n.activeGoal.isSome = true ∧ n.activeGoalPose.isSome = true)) ∨
    n.activeSpinGoalPose.any (sameGoal pose) = true := by
  simp only [Node.isDuplicate, Bool.or_eq_true, Bool.and_eq_true, decide_eq_true_eq] at h
  rcases h with (hstamp | hsent) | ⟨-, hpose⟩
  · exact Or.inl hstamp
  · obtain ⟨p, hp, hsame⟩ := (Option.any_eq_true _ _).mp hsent
    simp only [Bool.and_eq_true, decide_eq_true_eq] at hsame
    exact Or.inr (Or.inl ⟨(Option.any_eq_true _ _).mpr ⟨p, hp, hsame.2⟩, Or.inl hsame.1⟩)
  · rw [Node.activePose] at hpose
    split_ifs at hpose with hgoal
    · rcases hactive with hactive | hactive
      · refine Or.inr (Or.inl ⟨hactive ▸ hpose, Or.inr ⟨hgoal, ?_⟩⟩)
        obtain ⟨p, hp, -⟩ := (Option.any_eq_true _ _).mp hpose
        rw [hp]
        rfl
      · rw [hactive] at hpose
        cases hpose
    · exact Or.inr (Or.inr hpose)

omit [PyFloat F] in
/-- A navigation ticket is for a goal with its stamp. -/
lemma exists_goal (h : t.isSpin = false) : ∃ goal, t.goal? = some goal ∧
    goal.sourceStamp = t.sourceStamp := by
  cases hreq : t.request with
  | navigateToPose p => exact ⟨⟨p, t.summary, t.sourceStamp⟩, by simp [Ticket.goal?, hreq], rfl⟩
  | spin yaw =>
    rw [Ticket.isSpin, hreq] at h
    cases h

lemma StampReached.step (hs : w.StampReached stamp) (h : Step cfg w e w') :
    w'.StampReached stamp := by
  obtain ⟨hpos, g, goal, hg, hstamp⟩ := hs
  exact ⟨hpos, g, goal, h.at_reached hg, hstamp⟩

/-- A clear step keeps the remembered stamp, when it is positive, one of a goal that succeeded. -/
lemma stampReached_step (hclear : Clear cfg w e) (h : Step cfg w e w')
    (hw : 0 < w.node.lastSucceededSourceStamp → w.StampReached w.node.lastSucceededSourceStamp)
    (hpos : 0 < w'.node.lastSucceededSourceStamp) :
    w'.StampReached w'.node.lastSucceededSourceStamp := by
  rcases h.lastSucceeded_cases with heq | ⟨g, t, tf, server, now, rfl, ht, hk, heq⟩
  · rw [heq] at hpos ⊢
    exact (hw hpos).step h
  · rw [heq] at hpos ⊢
    have hown := (at_of_getElem? ht).mp (hclear.result g tf server now rfl ⟨t, ht, hk⟩ hpos)
    obtain ⟨goal, hgoal, hstamp⟩ := exists_goal hk
    exact ⟨hpos, g, goal, h.reached_of_stores ⟨t, ht, hgoal⟩, hstamp.trans hown⟩

lemma stampReached_of_clear (hrun : Run (step cfg) {} es w)
    (hclear : Always (step cfg) {} (Clear cfg) es) :
    0 < w.node.lastSucceededSourceStamp → w.StampReached w.node.lastSucceededSourceStamp :=
  hrun.invariant (I := fun _ w => 0 < w.node.lastSucceededSourceStamp →
      w.StampReached w.node.lastSucceededSourceStamp) (fun h => absurd h (by norm_num))
    (fun _ _ _ _ _ hc hs he => stampReached_step hc (step_cases he) hs) hclear

/-- In a run whose steps are clear, a goal message that is not stale and has a transform is dropped
only when a goal or a final spin at its position is requested, active or queued, or when a goal
with its stamp has succeeded. -/
theorem drops_justified (hrun : Run (step cfg) {} es w)
    (hclear : Always (step cfg) {} (Clear cfg) es) :
    ∀ pre e post u pose stamp now, es = pre ++ e :: post → Run (step cfg) {} pre u →
      Arrives cfg e pose stamp now → u.admitted cfg e = none →
      Occupied cfg pre u pose ∨ u.StampReached stamp := by
  intro pre e post u pose stamp now hes hu harrives hdrop
  subst hes
  obtain ⟨u₁, hu₁, hpost⟩ := run_append_iff.mp hrun
  obtain rfl := hu.unique hu₁
  obtain ⟨u₂, he, -⟩ := run_cons_iff.mp hpost
  have hrem := remembers_of_run hu
  have hdup := isDuplicate_of_dropped harrives he hdrop
  rcases duplicate_cases hrem.active hdup with ⟨hpos, hstamp⟩ | ⟨hsent, hsoon⟩ | hspin
  · -- the stamp of a goal that was reached
    right
    rw [hstamp] at hpos ⊢
    exact stampReached_of_clear hu hclear.of_append hpos
  · -- the pose that was sent last
    refine or_iff_not_imp_right.mpr fun hreached => ?_
    have hout := (hclear rfl hu).message pose stamp now harrives hreached hsent hsoon
    obtain ⟨p, hp, hsame⟩ := (Option.any_eq_true _ _).mp hsent
    obtain ⟨g, goal, hlast, hgoal, rfl⟩ := hrem.sent p hp
    exact .goal hgoal (hout g hlast) hsame
  · -- the pose of a spin
    left
    obtain ⟨p, hp, hsame⟩ := (Option.any_eq_true _ _).mp hspin
    obtain ⟨k, hfor, hopen, -⟩ := hrem.spin p hp
    exact .spin hfor (hopen.imp fun t ht => ht.outstanding) hsame

/-- A goal message is clear while every goal is outstanding, and when it has the stamp of a goal
that succeeded. Other events are clear while the stored stamp is that of every goal. -/
lemma Clear.of_tickets (hmessage : ∀ m ∈ e.goalMessage, (∀ t ∈ w.tickets, t.Outstanding) ∨
      0 < m.1.stamp.seconds ∧ ∃ t ∈ w.tickets, t.isSpin = false ∧
        t.phase = .finished (.status .succeeded) ∧ t.sourceStamp = m.1.stamp.seconds)
    (hresult : e.goalMessage = none →
      ∀ t ∈ w.tickets, t.sourceStamp = w.node.activeGoalSourceStamp) : Clear cfg w e := by
  constructor
  · rintro pose stamp now ⟨msg, tf, sendAt, source, hmsg, -, -, -, rfl⟩ hreached - - g
      ⟨⟨t, ht, -⟩, -⟩
    rcases hmessage _ hmsg with hall | ⟨hpos, t', ht', hspin, hphase, hstamp⟩
    · exact ⟨t, ht, hall t (List.mem_of_getElem? ht)⟩
    · obtain ⟨g', hg'⟩ := List.mem_iff_getElem?.mp ht'
      obtain ⟨goal, hgoal, hsource⟩ := exists_goal hspin
      exact (hreached ⟨hpos, g', goal, ⟨t', hg', hgoal, hphase⟩, hsource.trans hstamp⟩).elim
  · rintro g tf server now rfl ⟨t, ht, -⟩ -
    exact ⟨t, ht, hresult rfl t (List.mem_of_getElem? ht)⟩

section

attribute [local instance] PyFloat.exact

/-- A goal is repeated while it is requested, and replayed after it was reached. -/
def repeats : List (Event ℚ) :=
  [.click 1 100 101, .click 1 102 103, .response 0 .accepted 104,
    .result 0 (.status .succeeded) (fun _ _ => none) true 105, .click 1 100 106]

/-- Neither repetition is sent. -/
theorem drops_justified_repeats : ∃ w, Run (step .defaults) {} repeats w ∧ w.tickets.length = 1 ∧
    ∀ pre e post u pose stamp now, repeats = pre ++ e :: post →
      Run (step .defaults) {} pre u → Arrives .defaults e pose stamp now →
      u.admitted .defaults e = none →
      Occupied .defaults pre u pose ∨ u.StampReached stamp := by
  have halways : Always (step .defaults) {} (fun w e =>
      (∀ m ∈ e.goalMessage, (∀ t ∈ w.tickets, t.Outstanding) ∨
        0 < m.1.stamp.seconds ∧ ∃ t ∈ w.tickets, t.isSpin = false ∧
          t.phase = .finished (.status .succeeded) ∧ t.sourceStamp = m.1.stamp.seconds) ∧
      (e.goalMessage.isNone = true →
        ∀ t ∈ w.tickets, t.sourceStamp = w.node.activeGoalSourceStamp)) repeats :=
    always_of_execAlways (by decide +kernel)
  obtain ⟨w, hw, hlen⟩ := exists_run (step .defaults) {} repeats
    (fun w => w.tickets.length = 1) (by decide +kernel)
  refine ⟨w, hw, hlen, drops_justified hw fun pre e post u hes hu => ?_⟩
  obtain ⟨hmessage, hresult⟩ := halways hes hu
  exact Clear.of_tickets hmessage fun he => hresult (Option.isNone_iff_eq_none.mpr he)

/-- A goal is rejected and its position clicked again two seconds later: the message is dropped,
although no goal is outstanding, queued or reached. -/
theorem rejected_goal_dropped : ∃ w pose, Run (step .defaults) {}
      [.click 1 100 101, .response 0 .rejected 102] w ∧
    Arrives .defaults (.click 1 103 104) pose 103 104 ∧
    (w.step .defaults (.click 1 103 104)).isSome = true ∧
    w.admitted .defaults (.click 1 103 104) = none ∧
    ¬(Occupied .defaults [.click 1 100 101, .response 0 .rejected 102] w pose ∨
      w.StampReached 103) := by
  obtain ⟨w, hw, hstep, hdrop, hqueue, hphase⟩ := exists_run (step .defaults) {}
    [.click 1 100 101, .response 0 .rejected 102]
    (fun w => (w.step .defaults (.click 1 103 104)).isSome = true ∧
      w.admitted .defaults (.click 1 103 104) = none ∧ w.node.pendingGoal = none ∧
      ∀ t ∈ w.tickets, t.phase = .refused) (by decide +kernel)
  have idle {g : ℕ} (h : At Ticket.Outstanding w.tickets g) : False := by
    obtain ⟨t, ht, hout | ⟨hout, -⟩⟩ := h
    · cases (hphase t (List.mem_of_getElem? ht)).symm.trans hout
    · cases (hphase t (List.mem_of_getElem? ht)).symm.trans hout
  refine ⟨w, _, hw, ⟨_, _, _, _, rfl, by decide +kernel, rfl, rfl, by decide +kernel⟩, hstep,
    hdrop, ?_⟩
  rintro (hocc | ⟨-, g, goal, ⟨t, ht, -, hp⟩, -⟩)
  · cases hocc with
    | goal _ hout | spin _ hout => exact idle hout
    | queued hq => cases hqueue.symm.trans hq
  · cases (hphase t (List.mem_of_getElem? ht)).symm.trans hp

end

end World
end GoalNav
