import HumanoidNavigation.GoalNav.Handles

/-!
# Outstanding goals

A goal is outstanding from its request until it is refused, has its result, or has a cancel
acknowledged. The node is meant to have a single active goal. It knows of a goal through its
handle only, and `Stage` follows from the events how the goal that was requested last stands:
there is no handle between the request and the response, nor after a later callback has cleared
it. `singleOutstanding_iff` says that the runs with a single outstanding goal are those in which
no goal is clicked at these two stages, and in which the end of an earlier goal makes no request
before that of the last one.
-/

namespace GoalNav

open Ledger Transition

variable {F : Type}

/-- Requested and not refused, or accepted with neither a result nor an acknowledged cancel. -/
def Ticket.Outstanding (t : Ticket F) : Prop :=
  t.phase = .requested ∨ t.phase = .accepted ∧ t.cancelAcked = false

instance : DecidablePred (Ticket.Outstanding (F := F)) := fun t =>
  inferInstanceAs (Decidable (t.phase = .requested ∨ t.phase = .accepted ∧ t.cancelAcked = false))

lemma Ticket.Fresh.outstanding {t : Ticket F} (h : t.Fresh) : t.Outstanding := Or.inl h.phase

/-- How the goal that was requested last stands, by the events since. -/
inductive Stage where
  /-- nothing was requested yet, or the goal was refused, has its result or an acknowledged
  cancel -/
  | ended
  /-- not answered -/
  | asked
  /-- accepted, and its handle is in place -/
  | held
  /-- accepted, and its handle was cleared -/
  | lost

/-- The handle is cleared. -/
def Stage.lose : Stage → Stage
  | held => lost
  | ended => ended
  | asked => asked
  | lost => lost

/-- What the event says about the goal `g`. -/
def Event.newsOf (g : ℕ) : Event F → Option Stage
  | response h r _ => if h = g then some (if r = .accepted then .held else .ended) else none
  | result h _ _ _ _ => if h = g then some .ended else none
  | cancelAck ack _ => if ack.g = g then some .ended else none
  | _ => none

namespace World

/-- At most one goal is outstanding. -/
def SingleOutstanding (w : World F) : Prop :=
  ∀ g h, At Ticket.Outstanding w.tickets g → At Ticket.Outstanding w.tickets h → g = h

/-- The event reports a result or an acknowledged cancel of the goal `g`. -/
inductive Ends : Event F → ℕ → Prop where
  | result (g : ℕ) (o : Outcome) (tf : TfBuffer F) (server : Bool) (now : ℚ) :
      Ends (.result g o tf server now) g
  | cancelAck (ack : Ack) (now : ℚ) : Ends (.cancelAck ack now) ack.g

/-- The event clears the handle of the kind of the goal that was requested last: it is a result
of a goal of that kind or the acknowledgement of its cancel, whichever goal that is, or
`cancel_navigation` after the grace period. -/
def ClearsLast (w : World F) : Event F → Prop
  | .result g _ _ _ _ => w.tickets[g]?.map Ticket.isSpin = w.tickets.getLast?.map Ticket.isSpin
  | .cancelAck ack _ => ack.callback.clears = w.tickets.getLast?.map Ticket.isSpin
  | .cancelNavigation true now => w.node.cancelIgnoreUntil ≤ now
  | _ => False

instance (w : World F) : DecidablePred w.ClearsLast
  | .result g _ _ _ _ => inferInstanceAs
      (Decidable (w.tickets[g]?.map Ticket.isSpin = w.tickets.getLast?.map Ticket.isSpin))
  | .cancelAck ack _ => inferInstanceAs
      (Decidable (ack.callback.clears = w.tickets.getLast?.map Ticket.isSpin))
  | .cancelNavigation true now => inferInstanceAs (Decidable (w.node.cancelIgnoreUntil ≤ now))
  | .cancelNavigation false _ | .map _ | .goalPose .. | .clickedPoint .. | .response ..
  | .feedback .. => inferInstanceAs (Decidable False)

/-- What the event does to the stage, in the step from `w` to `w'`. -/
def nextStage (w : World F) (s : Stage) (e : Event F) (w' : World F) : Stage :=
  if w.tickets.length < w'.tickets.length then .asked
  else
    match e.newsOf (w.tickets.length - 1) with
    | some s' => s'
    | none => if w.ClearsLast e then s.lose else s

variable [PyFloat F]

/-- The stage that the events lead to. -/
def stageAfter (cfg : Config F) (es : List (Event F)) : Stage :=
  along (step cfg) nextStage {} .ended es

/-- The callback for the event makes a request: a goal message that finds the node idle, an
acknowledgement or a spin result that finds a goal in the queue, or the result of a goal that
succeeded away from its yaw. -/
inductive Sends (cfg : Config F) (w : World F) : Event F → Prop where
  | goal {e : Event F} {goal : Goal F} (ha : w.admitted cfg e = some goal)
      (hg : w.node.activeGoal = none) (hs : w.node.activeSpin = none) : Sends cfg w e
  | cancelAck {ack : Ack} {goal : Goal F} (now : ℚ) (hc : ack.callback ≠ .ignore)
      (hq : w.node.pendingGoal = some goal) : Sends cfg w (.cancelAck ack now)
  | spinResult {g : ℕ} {t : Ticket F} {o : Outcome} {goal : Goal F} (tf : TfBuffer F)
      (server : Bool) (now : ℚ) (ht : w.tickets[g]? = some t) (hk : t.isSpin = true)
      (ho : o ≠ .failed) (hq : w.node.pendingGoal = some goal) :
      Sends cfg w (.result g o tf server now)
  | finalSpin {g : ℕ} {t : Ticket F} {tf : TfBuffer F} {server : Bool} {yaw : F} (now : ℚ)
      (ht : w.tickets[g]? = some t) (hk : t.isSpin = false)
      (hs : Node.SpinNeeded cfg w.node.activeGoalPose tf server yaw) :
      Sends cfg w (.result g (.status .succeeded) tf server now)

/-- The order of the events at the stage `s`: no goal is clicked between a request and its
response, nor after the handle of an accepted goal was cleared and before that goal is over; and
a result or an acknowledgement for an earlier goal makes a request only when the last goal is
over. -/
structure InTurn (cfg : Config F) (w : World F) (s : Stage) (e : Event F) : Prop where
  click : (w.admitted cfg e).isSome → s = .ended ∨ s = .held
  late : ∀ g, Ends e g → g + 1 ≠ w.tickets.length → Sends cfg w e → s = .ended

/-- When the callback makes a request, no goal is outstanding but the one whose end it
reports. -/
def NoOverlap (cfg : Config F) (w : World F) (e : Event F) : Prop :=
  Sends cfg w e → ∀ g, At Ticket.Outstanding w.tickets g → Ends e g

variable {cfg : Config F} {w w' : World F} {e : Event F} {es : List (Event F)} {g : ℕ}

/-- A step makes one request, which starts the grace period, or none. -/
lemma Step.sends_cases (h : Step cfg w e w') :
    (Sends cfg w e ∧ ∃ ts t, w'.tickets = ts ++ [t] ∧ ts.length = w.tickets.length ∧ t.Fresh ∧
      w'.node.cancelIgnoreUntil = t.sentAt + cfg.cancelGraceS) ∨
    ¬Sends cfg w e ∧ w'.tickets.length = w.tickets.length := by
  cases h with
  | map | graceCleared | cancelIgnored | feedback =>
    refine Or.inr ⟨?_, rfl⟩
    rintro ⟨⟩
    contradiction
  | cancelHonoured =>
    refine Or.inr ⟨?_, by simp⟩
    rintro ⟨⟩
    contradiction
  | goalIgnored hm ha =>
    refine Or.inr ⟨?_, rfl⟩
    rintro (⟨ha', -, -⟩ | _)
    · cases ha.symm.trans ha'
    all_goals contradiction
  | goalSent hm ha hg hs => exact Or.inl ⟨.goal ha hg hs, _, _, rfl, rfl, Ticket.fresh_ofGoal, rfl⟩
  | goalQueued hm ha hg =>
    refine Or.inr ⟨?_, by simp⟩
    rintro (⟨-, hg', -⟩ | _)
    · cases hg.symm.trans hg'
    all_goals contradiction
  | goalQueuedSpin hm ha hg hs =>
    refine Or.inr ⟨?_, by simp⟩
    rintro (⟨-, -, hs'⟩ | _)
    · cases hs.symm.trans hs'
    all_goals contradiction
  | goalRefused | spinRefused | goalAccepted | spinAccepted =>
    refine Or.inr ⟨?_, by simp⟩
    rintro ⟨⟩
    contradiction
  | goalFinished tf server now ht hp hk hs =>
    refine Or.inr ⟨?_, by simp⟩
    rintro (_ | _ | ⟨_, _, _, ht', hk', -, -⟩ | ⟨_, -, -, hs'⟩)
    · contradiction
    · cases ht.symm.trans ht'
      cases hk.symm.trans hk'
    · exact hs rfl _ hs'
  | goalReached ht hp hk hs =>
    exact Or.inl ⟨.finalSpin _ ht hk hs, _, _, rfl, by simp, Ticket.fresh_ofSpin, rfl⟩
  | spinFinished tf server now ht hp hk hq =>
    refine Or.inr ⟨?_, by simp⟩
    rintro (_ | _ | ⟨_, _, _, -, -, ho, hq'⟩ | ⟨_, ht', hk', -⟩)
    · contradiction
    · rcases hq with rfl | hq
      · exact ho rfl
      · cases hq.symm.trans hq'
    · cases ht.symm.trans ht'
      cases hk.symm.trans hk'
  | spinFinishedSend tf server now ht hp hk ho hq =>
    exact Or.inl ⟨.spinResult tf server now ht hk ho hq, _, _, rfl, by simp,
      Ticket.fresh_ofGoal, rfl⟩
  | goalAcked now ha hc hq | spinAcked now ha hc hq =>
    refine Or.inr ⟨?_, by simp⟩
    rintro (_ | ⟨_, -, hq'⟩)
    · contradiction
    · cases hq.symm.trans hq'
  | goalAckedSend now ha hc hq | spinAckedSend now ha hc hq =>
    exact Or.inl ⟨.cancelAck now (by simp [hc]) hq, _, _, rfl, by simp, Ticket.fresh_ofGoal, rfl⟩
  | ackIgnored now ha hc =>
    refine Or.inr ⟨?_, by simp⟩
    rintro (_ | ⟨_, hc', -⟩)
    · contradiction
    · exact hc' hc

/-! ### Old goals -/

lemma TicketStep.outstanding {t t' : Ticket F} (h : TicketStep w e g t t')
    (ht' : t'.Outstanding) : t.Outstanding := by
  cases h with
  | same | cancelled => exact ht'
  | accepted _ hp => exact Or.inl hp
  | refused => rcases ht' with h | ⟨h, -⟩ <;> cases h
  | finished => rcases ht' with h | ⟨h, -⟩ <;> cases h
  | acknowledged => exact ht'.imp_right fun h => absurd h.2 (by simp [Ticket.acknowledge])

/-- A goal that was there before the step is outstanding after it only if it was before it. -/
lemma Step.outstanding_of_lt (h : Step cfg w e w') (hlt : g < w.tickets.length)
    (hg : At Ticket.Outstanding w'.tickets g) : At Ticket.Outstanding w.tickets g := by
  obtain ⟨t', ht', ho⟩ := hg
  rcases h.ticket_cases ht' with ⟨t, ht, hstep⟩ | ⟨rfl, -⟩
  · exact ⟨t, ht, hstep.outstanding ho⟩
  · exact absurd hlt (lt_irrefl _)

lemma Step.not_outstanding_of_ends (hw : w.Coherent) (h : Step cfg w e w') (he : Ends e g)
    (hlt : g < w.tickets.length) : ¬At Ticket.Outstanding w'.tickets g := by
  rintro ⟨t', ht', ho⟩
  cases he with
  | result g o tf server now =>
    cases (h.ticket_finished (List.getElem?_eq_getElem hlt)).symm.trans ht'
    rcases ho with h | ⟨h, -⟩ <;> cases h
  | cancelAck ack now =>
    have ht := List.getElem?_eq_getElem hlt
    cases (h.ticket_acknowledged ht).symm.trans ht'
    rcases ho with hp | ⟨-, hp⟩
    · exact hw.phase_ne_requested h.ack_mem ht hp
    · cases hp

lemma Sends.ne_response {r : Response} {now : ℚ} (h : Sends cfg w e) : e ≠ .response g r now := by
  rintro rfl
  cases h with
  | goal ha => cases ha

/-- The step of a request keeps every goal outstanding but the one whose end it reports. -/
lemma Step.outstanding_of_sends (h : Step cfg w e w') (hs : Sends cfg w e) (he : ¬Ends e g)
    (hg : At Ticket.Outstanding w.tickets g) : At Ticket.Outstanding w'.tickets g := by
  obtain ⟨t, ht, ho⟩ := hg
  obtain ⟨t', ht', hstep⟩ := h.ticket_next ht
  refine ⟨t', ht', ?_⟩
  cases hstep with
  | same | cancelled => exact ho
  | accepted he' | refused he' => exact absurd he' hs.ne_response
  | finished he' =>
    subst he'
    exact absurd (.result ..) he
  | acknowledged he' _ hg =>
    subst he' hg
    exact absurd (.cancelAck ..) he

/-! ### A single goal -/

/-- A step keeps the outstanding goals to one if and only if it does not overlap. -/
theorem step_singleOutstanding_iff (hw : w.Coherent) (hsingle : w.SingleOutstanding)
    (h : Step cfg w e w') : w'.SingleOutstanding ↔ NoOverlap cfg w e := by
  rcases h.sends_cases with ⟨hs, ts, t, hts, hlen, hfresh, -⟩ | ⟨hs, hlen⟩
  · have hnew : At Ticket.Outstanding w'.tickets w.tickets.length := by
      rw [hts, ← hlen, at_concat_length]
      exact hfresh.outstanding
    constructor
    · intro hsingle' _ g hg
      by_contra he
      have := hsingle' _ _ (h.outstanding_of_sends hs he hg) hnew
      exact absurd hg.lt this.not_lt
    · intro hno
      -- only the new goal can be outstanding
      have hold : ∀ g, At Ticket.Outstanding w'.tickets g → g = w.tickets.length := by
        intro g hg
        obtain ⟨t', ht', -⟩ := id hg
        rcases h.ticket_cases ht' with ⟨_, ht₀, -⟩ | ⟨hg', -⟩
        · have hlt := (List.getElem?_eq_some_iff.mp ht₀).1
          have he := hno hs g (h.outstanding_of_lt hlt hg)
          exact absurd hg (h.not_outstanding_of_ends hw he hlt)
        · exact hg'
      intro g k hg hk
      rw [hold g hg, hold k hk]
  · refine iff_of_true ?_ fun hs' => absurd hs' hs
    intro g k hg hk
    exact hsingle g k (h.outstanding_of_lt (hlen ▸ hg.lt) hg)
      (h.outstanding_of_lt (hlen ▸ hk.lt) hk)

/-! ### Handles of outstanding goals -/

/-- A goal in a handle is outstanding; nothing that was not accepted has an acknowledged cancel,
and a goal whose acknowledgement will be ignored is in no handle. -/
structure Attached (w : World F) : Prop where
  handle : ∀ spin g, w.node.handle spin = some g → At Ticket.Outstanding w.tickets g
  unacked : ∀ (g : ℕ) (t : Ticket F), w.tickets[g]? = some t → t.phase = .requested →
    t.cancelAcked = false
  ignored : ∀ ack ∈ w.acks, ack.callback = .ignore → ∀ spin, w.node.handle spin ≠ some ack.g

omit [PyFloat F] in
lemma attached_init : Attached ({} : World F) where
  handle spin g h := by cases spin <;> cases h
  unacked g t h := by simp at h
  ignored _ h := by simp at h

lemma Attached.step_unacked (ha : w.Attached) (hw : w.Coherent) (h : Step cfg w e w')
    {t' : Ticket F} (ht' : w'.tickets[g]? = some t') (hp' : t'.phase = .requested) :
    t'.cancelAcked = false := by
  rcases h.ticket_cases ht' with ⟨t, ht, hstep⟩ | ⟨-, hnew⟩
  · cases hstep with
    | same => exact ha.unacked g t' ht hp'
    | cancelled => exact ha.unacked g t ht hp'
    | accepted | refused | finished => cases hp'
    | acknowledged _ hack hg =>
      subst hg
      exact absurd (show t.phase = .requested from hp') (hw.phase_ne_requested hack ht)
  · exact hnew.cancelAcked

lemma Attached.step_handle (ha : w.Attached) (hw : w.Coherent) (h : Step cfg w e w')
    {spin : Bool} (hg : w'.node.handle spin = some g) :
    At Ticket.Outstanding w'.tickets g := by
  rcases h.handle_cases spin with ⟨k, now, rfl, hs, hk⟩ | ⟨k, -, hs, hk⟩ | ⟨hs, hk | ⟨hk, -⟩⟩
  · -- accepted just now
    obtain rfl := Option.some.inj (hk.symm.trans hg)
    cases hs with
    | accepted _ ht hp =>
      have hacked := ha.unacked _ _ ht hp
      exact ⟨_, h.ticket_accepted ht, Or.inr ⟨rfl, hacked⟩⟩
  · cases hk.symm.trans hg
  · have hold := hk.symm.trans hg
    obtain ⟨t, ht, hout, hlive⟩ := (ha.handle spin g hold).and (hw.handle spin g hold)
    obtain ⟨t', ht', hstep⟩ := h.ticket_next ht
    refine ⟨t', ht', ?_⟩
    cases hstep with
    | same | cancelled => exact hout
    | accepted _ hp | refused _ _ hp => cases hp.symm.trans hlive.2
    | finished he hp =>
      subst he
      exact absurd (.finished _ _ _ _ ht hp hlive.1) (hs g)
    | @acknowledged ack now he hack hg' =>
      subst he hg'
      obtain ⟨-, hkind⟩ := (at_of_getElem? ht).mp (hw.ack ack hack)
      cases hc : ack.callback with
      | ignore => exact absurd hold (ha.ignored ack hack hc spin)
      | onCancelDone =>
        have := hkind false (by rw [hc]; rfl)
        exact absurd (.acknowledged now hack (by rw [hc, ← hlive.1, this]; rfl)) (hs _)
      | onSpinCancelDone =>
        have := hkind true (by rw [hc]; rfl)
        exact absurd (.acknowledged now hack (by rw [hc, ← hlive.1, this]; rfl)) (hs _)
  · cases hk.symm.trans hg

/-- Only the operator's cancel asks for an acknowledgement that is ignored. -/
lemma Step.ignored_cases (h : Step cfg w e w') {ack : Ack} (hack : ack ∈ w'.acks)
    (hc : ack.callback = .ignore) : ack ∈ w.acks ∨ ∀ spin, w'.node.handle spin = none := by
  cases h with
  | cancelHonoured => exact Or.inr fun spin => by cases spin <;> simp
  | goalQueued | goalQueuedSpin =>
    rcases List.mem_append.mp hack with hack | hack
    · exact Or.inl hack
    · obtain rfl := List.mem_singleton.mp hack
      cases hc
  | goalAcked | goalAckedSend | spinAcked | spinAckedSend | ackIgnored =>
    exact Or.inl (List.mem_of_mem_erase hack)
  | _ => exact Or.inl hack

lemma Attached.step_ignored (ha : w.Attached) (hw : w.Coherent) (h : Step cfg w e w') {ack : Ack}
    (hack : ack ∈ w'.acks) (hc : ack.callback = .ignore) (spin : Bool) :
    w'.node.handle spin ≠ some ack.g := by
  intro hg
  rcases h.ignored_cases hack hc with hack | hnone
  · rcases h.handle_cases spin with ⟨k, now, rfl, hs, hk⟩ | ⟨k, -, hs, hk⟩ | ⟨hs, hk | ⟨hk, -⟩⟩
    · obtain rfl := Option.some.inj (hk.symm.trans hg)
      cases hs with
      | accepted _ ht hp => exact hw.phase_ne_requested hack ht hp
    · cases hk.symm.trans hg
    · exact ha.ignored ack hack hc spin (hk.symm.trans hg)
    · cases hk.symm.trans hg
  · cases (hnone spin).symm.trans hg

lemma Attached.step (ha : w.Attached) (hw : w.Coherent) (h : Step cfg w e w') : w'.Attached where
  handle _ _ hg := ha.step_handle hw h hg
  unacked _ _ ht hp := ha.step_unacked hw h ht hp
  ignored _ hack hc spin := ha.step_ignored hw h hack hc spin

lemma attached_of_run (hrun : Run (step cfg) {} es w) : w.Attached := by
  refine (hrun.invariant_state (I := fun w => w.Coherent ∧ w.Attached)
    ⟨coherent_init, attached_init⟩ fun _ _ _ hw h => ?_).2
  exact ⟨hw.1.step h, hw.2.step hw.1 (step_cases h)⟩

/-! ### Stages -/

/-- The goal that was requested last stands at the stage. -/
inductive StandsAt (w : World F) : Stage → Prop where
  | ended (h : ∀ g, ¬At Ticket.Outstanding w.tickets g) : StandsAt w .ended
  | asked {g : ℕ} {t : Ticket F} (hg : g + 1 = w.tickets.length) (ht : w.tickets[g]? = some t)
      (hp : t.phase = .requested) : StandsAt w .asked
  | held {g : ℕ} {t : Ticket F} (hg : g + 1 = w.tickets.length) (ht : w.tickets[g]? = some t)
      (hp : t.phase = .accepted) (ha : t.cancelAcked = false)
      (hh : w.node.handle t.isSpin = some g) : StandsAt w .held
  | lost {g : ℕ} {t : Ticket F} (hg : g + 1 = w.tickets.length) (ht : w.tickets[g]? = some t)
      (hp : t.phase = .accepted) (ha : t.cancelAcked = false)
      (hh : w.node.handle t.isSpin = none) : StandsAt w .lost

variable {s : Stage}

omit [PyFloat F] in
/-- While the last goal is not over, it is the outstanding one. -/
lemma StandsAt.eq_ended_or (hs : w.StandsAt s) : s = .ended ∨
    ∃ g, g + 1 = w.tickets.length ∧ At Ticket.Outstanding w.tickets g := by
  cases hs with
  | ended => exact Or.inl rfl
  | asked hg ht hp => exact Or.inr ⟨_, hg, _, ht, Or.inl hp⟩
  | held hg ht hp ha | lost hg ht hp ha => exact Or.inr ⟨_, hg, _, ht, Or.inr ⟨hp, ha⟩⟩

omit [PyFloat F] in
/-- The node has a handle only while the last goal is held. -/
lemma StandsAt.handle_eq_none (hs : w.StandsAt s) (hw : w.Coherent) (ha : w.Attached)
    (hsingle : w.SingleOutstanding) (hne : s ≠ .held) (spin : Bool) :
    w.node.handle spin = none := by
  rw [Option.eq_none_iff_forall_ne_some]
  intro k hh
  have hlive := hw.handle spin k hh
  have hout := ha.handle spin k hh
  cases hs with
  | ended h => exact h k hout
  | asked hg ht hp =>
    obtain rfl := hsingle _ _ hout ⟨_, ht, Or.inl hp⟩
    cases hp.symm.trans ((at_of_getElem? ht).mp hlive).2
  | held => exact hne rfl
  | lost hg ht hp hack hnone =>
    obtain rfl := hsingle _ _ hout ⟨_, ht, Or.inr ⟨hp, hack⟩⟩
    obtain rfl := ((at_of_getElem? ht).mp hlive).1
    cases hh.symm.trans hnone

/-- Where a request comes from that is not about a goal's end. -/
lemma Sends.admitted_or_ends (h : Sends cfg w e) :
    (w.admitted cfg e).isSome ∧ (∀ spin, w.node.handle spin = none) ∨ ∃ g, Ends e g := by
  cases h with
  | goal ha hg hs => exact Or.inl ⟨by simp [ha], fun spin => by cases spin <;> assumption⟩
  | cancelAck => exact Or.inr ⟨_, .cancelAck ..⟩
  | spinResult | finalSpin => exact Or.inr ⟨_, .result ..⟩

omit [PyFloat F] in
lemma Ends.unique {k : ℕ} (hg : Ends e g) (hk : Ends e k) : g = k := by
  cases hg <;> cases hk <;> rfl

/-- In terms of the stage, a step does not overlap when it comes in turn. -/
lemma StandsAt.noOverlap_iff (hs : w.StandsAt s) (hw : w.Coherent) (ha : w.Attached)
    (hsingle : w.SingleOutstanding) : NoOverlap cfg w e ↔ InTurn cfg w s e := by
  rcases hs.eq_ended_or with rfl | ⟨g, hg, hout⟩
  · cases hs with
    | ended h =>
      exact iff_of_true (fun _ k hk => absurd hk (h k)) ⟨fun _ => Or.inl rfl, fun _ _ _ _ => rfl⟩
  constructor
  · intro hno
    constructor
    · intro hadm
      by_contra! hne
      have hnone := hs.handle_eq_none hw ha hsingle hne.2
      obtain ⟨goal, hgoal⟩ := Option.isSome_iff_exists.mp hadm
      have hends := hno (.goal hgoal (hnone false) (hnone true)) g hout
      cases hends <;> cases hgoal
    · intro k hk hne hsends
      have := (hno hsends g hout).unique hk
      exact absurd (this ▸ hg) hne
  · intro hturn hsends k hk
    obtain rfl := hsingle _ _ hk hout
    have hne : s ≠ .ended := by
      rintro rfl
      cases hs with
      | ended h => exact h k hk
    rcases hsends.admitted_or_ends with ⟨hadm, hnone⟩ | ⟨j, hj⟩
    · -- a click at a stage with a handle is queued
      obtain rfl := (hturn.click hadm).resolve_left hne
      cases hs with
      | held _ _ _ _ hh => cases (hnone _).symm.trans hh
    · by_cases hjk : j + 1 = w.tickets.length
      · obtain rfl : j = k := by omega
        exact hj
      · exact absurd (hturn.late j hj hjk hsends) hne

/-! ### What a step does to the stage -/

omit [PyFloat F] in
lemma newsOf_eq_ended (h : Ends e g) : e.newsOf g = some .ended := by
  cases h <;> simp [Event.newsOf]

omit [PyFloat F] in
/-- News of a goal is a response to it or its end. -/
lemma newsOf_cases (g : ℕ) (e : Event F) :
    (∃ now, e = .response g .accepted now ∧ e.newsOf g = some .held) ∨
    (∃ r now, e = .response g r now ∧ r ≠ .accepted ∧ e.newsOf g = some .ended) ∨
    Ends e g ∧ e.newsOf g = some .ended ∨
    (∀ r now, e ≠ .response g r now) ∧ ¬Ends e g ∧ e.newsOf g = none := by
  cases e with
  | response k r now =>
    rcases eq_or_ne k g with rfl | hk
    · by_cases hr : r = .accepted
      · subst hr
        exact Or.inl ⟨now, rfl, by simp [Event.newsOf]⟩
      · exact Or.inr (Or.inl ⟨r, now, rfl, hr, by simp [Event.newsOf, hr]⟩)
    · refine Or.inr (Or.inr (Or.inr ⟨?_, nofun, by simp [Event.newsOf, hk]⟩))
      rintro r now ⟨⟩
      exact hk rfl
  | result k o tf server now =>
    rcases eq_or_ne k g with rfl | hk
    · exact Or.inr (Or.inr (Or.inl ⟨.result .., newsOf_eq_ended (.result ..)⟩))
    · refine Or.inr (Or.inr (Or.inr ⟨nofun, ?_, by simp [Event.newsOf, hk]⟩))
      rintro ⟨⟩
      exact hk rfl
  | cancelAck ack now =>
    rcases eq_or_ne ack.g g with rfl | hk
    · exact Or.inr (Or.inr (Or.inl ⟨.cancelAck .., newsOf_eq_ended (.cancelAck ..)⟩))
    · refine Or.inr (Or.inr (Or.inr ⟨nofun, ?_, by simp [Event.newsOf, hk]⟩))
      rintro ⟨⟩
      exact hk rfl
  | _ => exact Or.inr (Or.inr (Or.inr ⟨nofun, nofun, rfl⟩))

/-- A goal that the event says nothing about keeps its phase. -/
lemma Step.phase_eq (h : Step cfg w e w') {t : Ticket F} (ht : w.tickets[g]? = some t)
    (hnews : e.newsOf g = none) : ∃ t', w'.tickets[g]? = some t' ∧ t'.phase = t.phase ∧
      t'.cancelAcked = t.cancelAcked ∧ t'.isSpin = t.isSpin := by
  obtain ⟨t', ht', hstep⟩ := h.ticket_next ht
  refine ⟨t', ht', ?_⟩
  cases hstep with
  | same | cancelled => exact ⟨rfl, rfl, rfl⟩
  | accepted he | refused he | finished he => simp [he, Event.newsOf] at hnews
  | acknowledged he _ hg => simp [he, hg, Event.newsOf] at hnews

omit [PyFloat F] in
lemma kind_last {t : Ticket F} (hg : g + 1 = w.tickets.length) (ht : w.tickets[g]? = some t) :
    w.tickets.getLast?.map Ticket.isSpin = some t.isSpin := by
  rw [List.getLast?_eq_getElem?, show w.tickets.length - 1 = g by omega, ht, Option.map_some]

/-- The handle of the last goal's kind is cleared by the events of `ClearsLast`, and only by
them as long as no response comes. -/
lemma Step.handle_last (h : Step cfg w e w') {t : Ticket F} (hg : g + 1 = w.tickets.length)
    (ht : w.tickets[g]? = some t) (hresp : ∀ k r now, e ≠ .response k r now) :
    w'.node.handle t.isSpin = if w.ClearsLast e then none else w.node.handle t.isSpin := by
  have hkind := kind_last hg ht
  rcases h.handle_cases t.isSpin with ⟨k, now, he, -⟩ | ⟨k, -, hs, hk⟩ | ⟨hs, hk⟩
  · exact absurd he (hresp _ _ _)
  · rw [hk, if_pos]
    cases hs with
    | accepted => exact absurd rfl (hresp _ _ _)
    | finished o tf server now ht' hp hk' => simp [ClearsLast, ht', hk', hkind]
    | acknowledged now hack hc => simp [ClearsLast, hc, hkind]
  · split_ifs with hclears
    · cases e with
      | result k o tf server now =>
        obtain ⟨t', ht', hk'⟩ := Option.map_eq_some_iff.mp (hclears.trans hkind)
        obtain ⟨t₁, ht₁, hp⟩ := h.exists_ticket_of_result
        cases ht₁.symm.trans ht'
        exact absurd (.finished o tf server now ht₁ hp hk') (hs k)
      | cancelAck ack now => exact absurd (.acknowledged now h.ack_mem (hclears.trans hkind)) (hs _)
      | cancelNavigation data now =>
        cases h with
        | graceCleared => exact hclears.elim
        | cancelIgnored hnow => exact absurd hclears hnow.not_ge
        | cancelHonoured => cases t.isSpin <;> simp
        | _ => contradiction
      | _ => exact hclears.elim
    · rcases hk with hk | ⟨-, ⟨now, rfl, hnow⟩, -⟩
      · exact hk
      · exact absurd hnow hclears

/-- While no request is made, a goal that is outstanding was the last one before. -/
lemma Step.standsAt_over (h : Step cfg w e w') (hlen : w'.tickets.length = w.tickets.length)
    (hsingle : w.SingleOutstanding) (hg : At Ticket.Outstanding w.tickets g)
    (hnot : ¬At Ticket.Outstanding w'.tickets g) : w'.StandsAt .ended := by
  refine .ended fun k hk => ?_
  have hk' := h.outstanding_of_lt (hlen ▸ hk.lt) hk
  exact hnot (hsingle k g hk' hg ▸ hk)

lemma Step.handle_accepted {now : ℚ} (h : Step cfg w (.response g .accepted now) w')
    {t : Ticket F} (ht : w.tickets[g]? = some t) : w'.node.handle t.isSpin = some g := by
  cases h with
  | goalRefused _ _ _ _ hr | spinRefused _ _ _ _ hr => exact absurd rfl hr
  | goalAccepted _ ht' _ hk | spinAccepted _ ht' _ hk =>
    cases ht.symm.trans ht'
    rw [hk]
    rfl
  | _ => contradiction

/-- The stage after a step, as long as there is a single outstanding goal. -/
lemma StandsAt.step (hs : w.StandsAt s) (hw : w.Coherent) (ha : w.Attached)
    (hsingle : w.SingleOutstanding) (h : Step cfg w e w') :
    w'.StandsAt (nextStage w s e w') := by
  rcases h.sends_cases with ⟨-, ts, t, hts, hlen, hfresh, -⟩ | ⟨-, hlen⟩
  · rw [nextStage, if_pos (by simp [hts, hlen])]
    exact .asked (g := w.tickets.length) (by simp [hts, hlen]) (by simp [hts, ← hlen]) hfresh.phase
  rw [nextStage, if_neg (by omega)]
  rcases hs.eq_ended_or with rfl | ⟨g, hg, hout⟩
  · -- nothing is outstanding, so no response is under way
    cases hs with
    | ended hnone =>
      have hended : w'.StandsAt .ended :=
        .ended fun k hk => hnone k (h.outstanding_of_lt (hlen ▸ hk.lt) hk)
      rcases newsOf_cases (w.tickets.length - 1) e with ⟨now, rfl, -⟩ | ⟨r, now, rfl, -⟩ |
        ⟨-, hnews⟩ | ⟨-, -, hnews⟩
      · obtain ⟨t, ht, hp⟩ := h.exists_ticket
        exact absurd ⟨t, ht, Or.inl hp⟩ (hnone _)
      · obtain ⟨t, ht, hp⟩ := h.exists_ticket
        exact absurd ⟨t, ht, Or.inl hp⟩ (hnone _)
      · simpa only [hnews] using hended
      · simpa only [hnews, Stage.lose, ite_self] using hended
  rw [show w.tickets.length - 1 = g by omega]
  rcases newsOf_cases g e with ⟨now, rfl, hnews⟩ | ⟨r, now, rfl, hr, hnews⟩ | ⟨hends, hnews⟩ |
    ⟨hresp, -, hnews⟩
  · -- accepted
    obtain ⟨t, ht, hp⟩ := h.exists_ticket
    have hack := ha.unacked g t ht hp
    have hh := h.handle_accepted ht
    simpa only [hnews] using
      StandsAt.held (hg.trans hlen.symm) (h.ticket_accepted ht) rfl hack hh
  · -- refused
    obtain ⟨t, ht, -⟩ := h.exists_ticket
    simp only [hnews]
    refine h.standsAt_over hlen hsingle hout fun hout' => ?_
    rcases (at_of_getElem? (h.ticket_refused hr ht)).mp hout' with hp | ⟨hp, -⟩ <;> cases hp
  · simp only [hnews]
    exact h.standsAt_over hlen hsingle hout (h.not_outstanding_of_ends hw hends (by omega))
  · -- the event is not about the last goal, but may clear its handle
    have hresp' : ∀ k r now, e ≠ .response k r now := by
      rintro k r now rfl
      obtain ⟨t, ht, hp⟩ := h.exists_ticket
      exact hresp r now (by rw [hsingle k g ⟨t, ht, Or.inl hp⟩ hout])
    simp only [hnews]
    cases hs with
    | ended hnone => exact absurd hout (hnone g)
    | asked hg' ht hp =>
      obtain rfl : g = _ := Nat.succ_injective (hg.trans hg'.symm)
      obtain ⟨t', ht', hp', -⟩ := h.phase_eq ht hnews
      simpa only [Stage.lose, ite_self] using
        StandsAt.asked (hg.trans hlen.symm) ht' (hp'.trans hp)
    | held hg' ht hp hack hh =>
      obtain rfl : g = _ := Nat.succ_injective (hg.trans hg'.symm)
      obtain ⟨t', ht', hp', hack', hkind⟩ := h.phase_eq ht hnews
      have hh' := h.handle_last hg ht hresp'
      rw [← hkind] at hh'
      split_ifs at hh' ⊢ with hclears
      · exact .lost (hg.trans hlen.symm) ht' (hp'.trans hp) (hack'.trans hack) hh'
      · exact .held (hg.trans hlen.symm) ht' (hp'.trans hp) (hack'.trans hack)
          (hh'.trans (hkind ▸ hh))
    | lost hg' ht hp hack hh =>
      obtain rfl : g = _ := Nat.succ_injective (hg.trans hg'.symm)
      obtain ⟨t', ht', hp', hack', hkind⟩ := h.phase_eq ht hnews
      have hh' := h.handle_last hg ht hresp'
      rw [hh, ite_self, ← hkind] at hh'
      simpa only [Stage.lose, ite_self] using
        StandsAt.lost (hg.trans hlen.symm) ht' (hp'.trans hp) (hack'.trans hack) hh'

/-! ### Runs -/

/-- Every event of the run comes in turn, at the stage that the earlier ones led to. -/
def AllInTurn (cfg : Config F) (es : List (Event F)) : Prop :=
  Throughout (step cfg) {} (fun pre w e => InTurn cfg w (stageAfter cfg pre) e) es

lemma standsAt_snoc (hrun : Run (step cfg) {} es w) (h : w.step cfg e = some w')
    (hs : w.StandsAt (stageAfter cfg es)) (hsingle : w.SingleOutstanding) :
    w'.StandsAt (stageAfter cfg (es ++ [e])) := by
  rw [stageAfter, along_snoc hrun h]
  exact hs.step (coherent_of_run hrun) (attached_of_run hrun) hsingle (step_cases h)

/-- A run has at most one outstanding goal at all times if and only if its clicks and its late
results and acknowledgements come in turn. -/
theorem singleOutstanding_iff (hrun : Run (step cfg) {} es w) :
    (∀ pre post u, es = pre ++ post → Run (step cfg) {} pre u → u.SingleOutstanding) ↔
      AllInTurn cfg es := by
  refine forall_prefix_iff_throughout (I := fun es w => w.StandsAt (stageAfter cfg es)) ?_ ?_ ?_
    ?_ hrun
  · exact .ended fun g hg => by simp at hg
  · intro g k hg
    simp at hg
  · intro pre e _ w w' _ hrun hs hsingle h _
    exact standsAt_snoc hrun h hs hsingle
  · intro pre e _ w w' _ hrun hs hsingle h
    rw [step_singleOutstanding_iff (coherent_of_run hrun) hsingle (step_cases h)]
    exact hs.noOverlap_iff (coherent_of_run hrun) (attached_of_run hrun) hsingle

section

attribute [local instance] PyFloat.exact

/-- A goal that is accepted, replaced by a second click and cancelled. -/
theorem singleOutstanding_iff_replaced : ∃ w, Run (step .defaults) {}
      [.click 1 100 101, .response 0 .accepted 102, .click 2 103 104,
        .cancelAck ⟨0, .onCancelDone, 2⟩ 105] w ∧
    ((∀ pre post u, [.click 1 100 101, .response 0 .accepted 102, .click 2 103 104,
          .cancelAck ⟨0, .onCancelDone, 2⟩ 105] = pre ++ post →
        Run (step .defaults) {} pre u → u.SingleOutstanding) ↔
      AllInTurn .defaults
        [.click 1 100 101, .response 0 .accepted 102, .click 2 103 104,
          .cancelAck ⟨0, .onCancelDone, 2⟩ 105]) := by
  obtain ⟨w, hw, -⟩ := exists_run (step .defaults) {}
    [.click 1 100 101, .response 0 .accepted 102, .click 2 103 104,
      .cancelAck ⟨0, .onCancelDone, 2⟩ 105] (fun w => w.tickets.length = 2)
      (by decide +kernel)
  exact ⟨w, hw, singleOutstanding_iff hw⟩

/-- Two clicks before the first response: the second finds no handle and is sent as well. -/
theorem two_clicks_outstanding : ∃ w, Run (step .defaults) {}
    [.click 1 100 101, .click 2 102 103] w ∧ ¬w.SingleOutstanding := by
  obtain ⟨w, hw, h₀, h₁⟩ := exists_run (step .defaults) {}
    [.click 1 100 101, .click 2 102 103]
    (fun w => At Ticket.Outstanding w.tickets 0 ∧ At Ticket.Outstanding w.tickets 1)
    (by decide +kernel)
  exact ⟨w, hw, fun hsingle => absurd (hsingle 0 1 h₀ h₁) (by decide)⟩

end

end World
end GoalNav
