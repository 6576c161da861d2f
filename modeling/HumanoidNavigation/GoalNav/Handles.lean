import HumanoidNavigation.GoalNav.System

/-!
# Handles and the ledger

The node has one handle for `NavigateToPose` and one for `Spin`; `Node.handle` reads both through
the kind of the goal. `World.Coherent` relates the handles and the undelivered acknowledgements
to the ledger, and `coherent_of_run` shows that every reachable world is coherent. What a step
does to a ticket is stated once, in `Step.ticket_cases`.
-/

namespace GoalNav

open Ledger

variable {F : Type}

/-- The handle for one kind of goal. -/
def Node.handle (n : Node F) (spin : Bool) : Option ℕ :=
  if spin then n.activeSpin else n.activeGoal

@[simp] lemma Node.handle_false (n : Node F) : n.handle false = n.activeGoal := rfl

@[simp] lemma Node.handle_true (n : Node F) : n.handle true = n.activeSpin := rfl

/-- The kind of the handle that a callback clears. -/
def CancelCallback.clears : CancelCallback → Option Bool
  | onCancelDone => some false
  | onSpinCancelDone => some true
  | ignore => none

/-! ### Tickets -/

namespace Ticket

variable {t : Ticket F} {spin : Bool} {k : ℕ} {now : ℚ} {o : Outcome} {goal : Goal F} {yaw : F}
  {stamp : ℚ}

/-- An accepted goal of the given kind that has no result yet. -/
def Live (spin : Bool) (t : Ticket F) : Prop := t.isSpin = spin ∧ t.phase = .accepted

/-- A goal that was just requested. -/
structure Fresh (t : Ticket F) : Prop where
  phase : t.phase = .requested
  cancelIssued : t.cancelIssued = false
  cancelAcked : t.cancelAcked = false
  acceptedAt : t.acceptedAt = none

lemma fresh_ofGoal : (ofGoal goal now).Fresh := ⟨rfl, rfl, rfl, rfl⟩

lemma fresh_ofSpin : (ofSpin yaw k stamp now).Fresh := ⟨rfl, rfl, rfl, rfl⟩

end Ticket

namespace World

section

variable {w : World F} {n : Node F} {ts : List (Ticket F)} {acks : List Ack}

@[simp] lemma next_node : (w.next n ts acks).node = n := rfl
@[simp] lemma next_tickets : (w.next n ts acks).tickets = ts := rfl
@[simp] lemma next_acks : (w.next n ts acks).acks = acks := rfl

end

/-- The callbacks that assign the handle of one kind, for a goal `g` of that kind. -/
inductive Settles (w : World F) (spin : Bool) : Event F → ℕ → Prop where
  | accepted {g : ℕ} {t : Ticket F} (now : ℚ) (ht : w.tickets[g]? = some t)
      (hp : t.phase = .requested) (hk : t.isSpin = spin) :
      Settles w spin (.response g .accepted now) g
  | finished {g : ℕ} {t : Ticket F} (o : Outcome) (tf : TfBuffer F) (server : Bool) (now : ℚ)
      (ht : w.tickets[g]? = some t) (hp : t.phase = .accepted) (hk : t.isSpin = spin) :
      Settles w spin (.result g o tf server now) g
  | acknowledged {ack : Ack} (now : ℚ) (ha : ack ∈ w.acks)
      (hc : ack.callback.clears = some spin) : Settles w spin (.cancelAck ack now) ack.g

/-- The event is the operator's cancel after the grace period. -/
def Cancels (w : World F) (e : Event F) : Prop :=
  ∃ now, e = .cancelNavigation true now ∧ w.node.cancelIgnoreUntil ≤ now

variable [PyFloat F] {cfg : Config F} {w w' : World F} {e : Event F} {es : List (Event F)}
  {g : ℕ} {t t' : Ticket F} {spin : Bool}

omit [PyFloat F] in
/-- A callback is for one goal. -/
lemma Settles.unique {h : ℕ} (hg : Settles w spin e g) (hh : Settles w spin e h) : g = h := by
  cases hg <;> cases hh <;> rfl

/-! ### What a step does to a ticket -/

/-- What the event `e` can do to the ticket `t` of the goal `g`. -/
inductive TicketStep (w : World F) (e : Event F) (g : ℕ) (t : Ticket F) : Ticket F → Prop where
  | same : TicketStep w e g t t
  | accepted {now : ℚ} (he : e = .response g .accepted now) (hp : t.phase = .requested) :
      TicketStep w e g t (t.accept w.steps now)
  | refused {r : Response} {now : ℚ} (he : e = .response g r now) (hr : r ≠ .accepted)
      (hp : t.phase = .requested) : TicketStep w e g t t.refuse
  | finished {o : Outcome} {tf : TfBuffer F} {server : Bool} {now : ℚ}
      (he : e = .result g o tf server now) (hp : t.phase = .accepted) :
      TicketStep w e g t (t.finish o)
  | cancelled (he : e.goalMessage.isSome ∨ ∃ now, e = .cancelNavigation true now)
      (hg : g ∈ w.node.handles) : TicketStep w e g t t.cancel
  | acknowledged {ack : Ack} {now : ℚ} (he : e = .cancelAck ack now) (ha : ack ∈ w.acks)
      (hg : ack.g = g) : TicketStep w e g t t.acknowledge

/-- A ticket after a step is an old one after `TicketStep`, or it is new. -/
lemma Step.ticket_cases (h : Step cfg w e w') (ht' : w'.tickets[g]? = some t') :
    (∃ t, w.tickets[g]? = some t ∧ TicketStep w e g t t') ∨
      g = w.tickets.length ∧ t'.Fresh := by
  have grow {ts : List (Ticket F)} {a : Ticket F} (ha : a.Fresh)
      (hlen : ts.length = w.tickets.length) (ht' : (ts ++ [a])[g]? = some t')
      (hts : ts[g]? = some t' → ∃ t, w.tickets[g]? = some t ∧ TicketStep w e g t t') :
      (∃ t, w.tickets[g]? = some t ∧ TicketStep w e g t t') ∨
        g = w.tickets.length ∧ t'.Fresh := by
    rcases getElem?_concat_cases ht' with ht' | ⟨hg, rfl⟩
    · exact Or.inl (hts ht')
    · exact Or.inr ⟨hg.trans hlen, ha⟩
  have update {k : ℕ} {f : Ticket F → Ticket F}
      (hf : ∀ t, w.tickets[k]? = some t → TicketStep w e k t (f t))
      (ht' : (w.tickets.modify k f)[g]? = some t') :
      ∃ t, w.tickets[g]? = some t ∧ TicketStep w e g t t' := by
    obtain ⟨t, ht, ⟨rfl, rfl⟩ | ⟨-, rfl⟩⟩ := getElem?_modify_cases ht'
    · exact ⟨t, ht, hf t ht⟩
    · exact ⟨_, ht, .same⟩
  cases h with
  | map | goalIgnored | graceCleared | cancelIgnored | feedback => exact Or.inl ⟨t', ht', .same⟩
  | goalSent => exact grow (Ticket.fresh_ofGoal) rfl ht' fun ht' => ⟨t', ht', .same⟩
  | goalQueued hm ha hg =>
    exact Or.inl (update (fun t _ => .cancelled (Or.inl hm) (Node.mem_handles.mpr (Or.inl hg))) ht')
  | goalQueuedSpin hm ha hg hs =>
    exact Or.inl (update (fun t _ => .cancelled (Or.inl hm) (Node.mem_handles.mpr (Or.inr hs))) ht')
  | cancelHonoured =>
    obtain ⟨t, ht, ⟨hg, rfl⟩ | rfl⟩ :=
      getElem?_modifyAll_cases (f := Ticket.cancel) (fun _ => rfl) ht'
    · exact Or.inl ⟨t, ht, .cancelled (Or.inr ⟨_, rfl⟩) hg⟩
    · exact Or.inl ⟨_, ht, .same⟩
  | goalRefused now ht hp hk hr | spinRefused now ht hp hk hr =>
    refine Or.inl (update (fun t ht₁ => .refused rfl hr ?_) ht')
    exact (Option.some.inj (ht₁.symm.trans ht)) ▸ hp
  | goalAccepted now ht hp | spinAccepted now ht hp =>
    refine Or.inl (update (fun t ht₁ => .accepted rfl ?_) ht')
    exact (Option.some.inj (ht₁.symm.trans ht)) ▸ hp
  | goalFinished tf server now ht hp | spinFinished tf server now ht hp =>
    refine Or.inl (update (fun t ht₁ => .finished rfl ?_) ht')
    exact (Option.some.inj (ht₁.symm.trans ht)) ▸ hp
  | goalReached ht hp =>
    refine grow Ticket.fresh_ofSpin (by simp) ht' (update fun t ht₁ => .finished rfl ?_)
    exact (Option.some.inj (ht₁.symm.trans ht)) ▸ hp
  | spinFinishedSend tf server now ht hp =>
    refine grow Ticket.fresh_ofGoal (by simp) ht' (update fun t ht₁ => .finished rfl ?_)
    exact (Option.some.inj (ht₁.symm.trans ht)) ▸ hp
  | goalAcked now ha | spinAcked now ha | ackIgnored now ha =>
    exact Or.inl (update (fun t _ => .acknowledged rfl ha rfl) ht')
  | goalAckedSend now ha | spinAckedSend now ha =>
    exact grow Ticket.fresh_ofGoal (by simp) ht' (update fun t _ => .acknowledged rfl ha rfl)

/-- No ticket is ever taken out. -/
lemma Step.length_le (h : Step cfg w e w') : w.tickets.length ≤ w'.tickets.length := by
  cases h <;> simp

lemma Step.ticket_next (h : Step cfg w e w') (ht : w.tickets[g]? = some t) :
    ∃ t', w'.tickets[g]? = some t' ∧ TicketStep w e g t t' := by
  have hlt : g < w.tickets.length := (List.getElem?_eq_some_iff.mp ht).1
  have ht' := List.getElem?_eq_getElem (hlt.trans_le h.length_le)
  rcases h.ticket_cases ht' with ⟨t₁, ht₁, hstep⟩ | ⟨hg, -⟩
  · rw [ht] at ht₁
    exact ⟨_, ht', Option.some.inj ht₁ ▸ hstep⟩
  · exact absurd hg hlt.ne

lemma Step.exists_ticket {r : Response} {now : ℚ} (h : Step cfg w (.response g r now) w') :
    ∃ t, w.tickets[g]? = some t ∧ t.phase = .requested := by
  cases h with
  | goalRefused _ ht hp | spinRefused _ ht hp | goalAccepted _ ht hp | spinAccepted _ ht hp =>
    exact ⟨_, ht, hp⟩
  | _ => contradiction

lemma Step.exists_ticket_of_result {o : Outcome} {tf : TfBuffer F} {server : Bool} {now : ℚ}
    (h : Step cfg w (.result g o tf server now) w') :
    ∃ t, w.tickets[g]? = some t ∧ t.phase = .accepted := by
  cases h with
  | goalFinished _ _ _ ht hp | goalReached ht hp | spinFinished _ _ _ ht hp
  | spinFinishedSend _ _ _ ht hp => exact ⟨_, ht, hp⟩
  | _ => contradiction

lemma Step.ticket_refused {r : Response} {now : ℚ} (h : Step cfg w (.response g r now) w')
    (hr : r ≠ .accepted) (ht : w.tickets[g]? = some t) : w'.tickets[g]? = some t.refuse := by
  cases h with
  | goalRefused | spinRefused => simp [ht]
  | goalAccepted | spinAccepted => exact absurd rfl hr
  | _ => contradiction

lemma Step.ticket_accepted {now : ℚ} (h : Step cfg w (.response g .accepted now) w')
    (ht : w.tickets[g]? = some t) : w'.tickets[g]? = some (t.accept w.steps now) := by
  cases h with
  | goalRefused _ _ _ _ hr | spinRefused _ _ _ _ hr => exact absurd rfl hr
  | goalAccepted | spinAccepted => simp [ht]
  | _ => contradiction

lemma Step.ticket_finished {o : Outcome} {tf : TfBuffer F} {server : Bool} {now : ℚ}
    (h : Step cfg w (.result g o tf server now) w') (ht : w.tickets[g]? = some t) :
    w'.tickets[g]? = some (t.finish o) := by
  have hlt : g < w.tickets.length := (List.getElem?_eq_some_iff.mp ht).1
  cases h with
  | goalFinished | spinFinished => simp [ht]
  | goalReached | spinFinishedSend =>
    rw [next_tickets, List.getElem?_append_left (by simpa using hlt)]
    simp [ht]
  | _ => contradiction

lemma Step.ticket_acknowledged {ack : Ack} {now : ℚ} (h : Step cfg w (.cancelAck ack now) w')
    (ht : w.tickets[ack.g]? = some t) : w'.tickets[ack.g]? = some t.acknowledge := by
  have hlt : ack.g < w.tickets.length := (List.getElem?_eq_some_iff.mp ht).1
  cases h with
  | goalAcked | spinAcked | ackIgnored => simp [ht]
  | goalAckedSend | spinAckedSend =>
    rw [next_tickets, List.getElem?_append_left (by simpa using hlt)]
    simp [ht]
  | _ => contradiction

lemma Step.ack_mem {ack : Ack} {now : ℚ} (h : Step cfg w (.cancelAck ack now) w') :
    ack ∈ w.acks := by
  cases h with
  | goalAcked _ ha | goalAckedSend _ ha | spinAcked _ ha | spinAckedSend _ ha
  | ackIgnored _ ha => exact ha
  | _ => contradiction

/-! ### What a step does to a handle -/

lemma Step.handle_cases (h : Step cfg w e w') (spin : Bool) :
    (∃ g now, e = .response g .accepted now ∧ Settles w spin e g ∧
      w'.node.handle spin = some g) ∨
    (∃ g, (∀ now, e ≠ .response g .accepted now) ∧ Settles w spin e g ∧
      w'.node.handle spin = none) ∨
    (∀ g, ¬Settles w spin e g) ∧
      (w'.node.handle spin = w.node.handle spin ∨ w'.node.handle spin = none ∧ w.Cancels e ∧
        ∀ g ∈ w.node.handles, ∀ t', w'.tickets[g]? = some t' → t'.cancelIssued = true) := by
  by_cases hs : ∃ g, Settles w spin e g
  · obtain ⟨g, hg⟩ := hs
    cases hg with
    | accepted now ht hp hk =>
      refine Or.inl ⟨g, now, rfl, .accepted now ht hp hk, ?_⟩
      cases h with
      | goalRefused _ _ _ _ hr | spinRefused _ _ _ _ hr => exact absurd rfl hr
      | goalAccepted _ ht' _ hk' | spinAccepted _ ht' _ hk' =>
        cases ht.symm.trans ht'
        obtain rfl := hk.symm.trans hk'
        rfl
      | _ => contradiction
    | finished o tf server now ht hp hk =>
      refine Or.inr (Or.inl ⟨g, nofun, .finished o tf server now ht hp hk, ?_⟩)
      cases h with
      | goalFinished _ _ _ ht' _ hk' | goalReached ht' _ hk' | spinFinished _ _ _ ht' _ hk'
      | spinFinishedSend _ _ _ ht' _ hk' =>
        cases ht.symm.trans ht'
        obtain rfl := hk.symm.trans hk'
        rfl
      | _ => contradiction
    | acknowledged now ha hc =>
      refine Or.inr (Or.inl ⟨_, nofun, .acknowledged now ha hc, ?_⟩)
      cases h with
      | goalAcked _ _ hc' | goalAckedSend _ _ hc' | spinAcked _ _ hc' | spinAckedSend _ _ hc' =>
        rw [hc'] at hc
        obtain rfl := Option.some.inj hc
        rfl
      | ackIgnored _ _ hc' =>
        rw [hc'] at hc
        cases hc
      | _ => contradiction
  · rw [not_exists] at hs
    refine Or.inr (Or.inr ⟨hs, ?_⟩)
    cases h with
    | map | goalIgnored | goalSent | goalQueued | goalQueuedSpin | graceCleared | cancelIgnored
    | goalRefused | spinRefused | ackIgnored | feedback => exact Or.inl rfl
    | cancelHonoured hnow =>
      refine Or.inr ⟨by cases spin <;> simp, ⟨_, rfl, hnow⟩, fun g hg t' ht' => ?_⟩
      have hlt : g < w.tickets.length := by
        simpa using (List.getElem?_eq_some_iff.mp ht').1
      have := at_modifyAll_of_mem (f := Ticket.cancel) (p := fun t => t.cancelIssued = true)
        hg hlt fun _ => rfl
      exact (at_of_getElem? ht').mp this
    | goalAccepted now ht hp hk =>
      cases spin with
      | false => exact absurd (.accepted now ht hp hk) (hs _)
      | true => exact Or.inl rfl
    | spinAccepted now ht hp hk =>
      cases spin with
      | false => exact Or.inl rfl
      | true => exact absurd (.accepted now ht hp hk) (hs _)
    | goalFinished tf server now ht hp hk =>
      cases spin with
      | false => exact absurd (.finished _ tf server now ht hp hk) (hs _)
      | true => exact Or.inl (by simp [Node.clearGoal])
    | goalReached ht hp hk =>
      cases spin with
      | false => exact absurd (.finished _ _ _ _ ht hp hk) (hs _)
      | true => exact Or.inl (by simp [Node.clearGoal, Node.extendGrace])
    | spinFinished tf server now ht hp hk | spinFinishedSend tf server now ht hp hk =>
      cases spin with
      | false => exact Or.inl rfl
      | true => exact absurd (.finished _ tf server now ht hp hk) (hs _)
    | goalAcked now ha hc | goalAckedSend now ha hc =>
      cases spin with
      | false => exact absurd (.acknowledged now ha (by rw [hc]; rfl)) (hs _)
      | true => exact Or.inl rfl
    | spinAcked now ha hc | spinAckedSend now ha hc =>
      cases spin with
      | false => exact Or.inl rfl
      | true => exact absurd (.acknowledged now ha (by rw [hc]; rfl)) (hs _)

/-! ### Coherence -/

/-- The handles, the cancels and the acknowledgements agree with the ledger. -/
structure Coherent (w : World F) : Prop where
  handle : ∀ spin g, w.node.handle spin = some g → At (Ticket.Live spin) w.tickets g
  unanswered : ∀ (g : ℕ) (t : Ticket F), w.tickets[g]? = some t → t.phase = .requested →
    t.cancelIssued = false
  ack : ∀ ack ∈ w.acks, At (fun t => t.cancelIssued = true ∧
    ∀ spin, ack.callback.clears = some spin → t.isSpin = spin) w.tickets ack.g

omit [PyFloat F] in
lemma coherent_init : Coherent ({} : World F) where
  handle spin g h := by cases spin <;> cases h
  unanswered g t h := by simp at h
  ack _ h := by simp at h

omit [PyFloat F] in
lemma Coherent.mem_handles (hw : w.Coherent) (hg : g ∈ w.node.handles) :
    ∃ spin, w.node.handle spin = some g ∧ At (Ticket.Live spin) w.tickets g := by
  rcases Node.mem_handles.mp hg with hg | hg
  · exact ⟨false, hg, hw.handle false g hg⟩
  · exact ⟨true, hg, hw.handle true g hg⟩

lemma Coherent.step_handle (hw : w.Coherent) (h : Step cfg w e w') {g : ℕ}
    (hg : w'.node.handle spin = some g) : At (Ticket.Live spin) w'.tickets g := by
  rcases h.handle_cases spin with ⟨k, now, rfl, hs, hk⟩ | ⟨k, -, hs, hk⟩ | ⟨hs, hk | ⟨hk, -⟩⟩
  · -- accepted just now
    obtain rfl := Option.some.inj (hk.symm.trans hg)
    cases hs with
    | accepted _ ht hp hkind => exact ⟨_, h.ticket_accepted ht, hkind, rfl⟩
  · cases hk.symm.trans hg
  · obtain ⟨t, ht, hlive⟩ := hw.handle spin g (hk.symm.trans hg)
    obtain ⟨t', ht', hstep⟩ := h.ticket_next ht
    refine ⟨t', ht', ?_⟩
    cases hstep with
    | same | cancelled | acknowledged => exact hlive
    | accepted _ hp | refused _ _ hp => cases hp.symm.trans hlive.2
    | finished he hp =>
      subst he
      exact absurd (.finished _ _ _ _ ht hp hlive.1) (hs g)
  · cases hk.symm.trans hg

lemma Coherent.step_unanswered (hw : w.Coherent) (h : Step cfg w e w')
    (ht' : w'.tickets[g]? = some t') (hp' : t'.phase = .requested) : t'.cancelIssued = false := by
  rcases h.ticket_cases ht' with ⟨t, ht, hstep⟩ | ⟨-, hnew⟩
  · cases hstep with
    | same => exact hw.unanswered g t' ht hp'
    | acknowledged => exact hw.unanswered g t ht hp'
    | accepted | refused | finished => cases hp'
    | cancelled _ hg =>
      obtain ⟨spin, -, hlive⟩ := hw.mem_handles hg
      cases hp'.symm.trans ((at_of_getElem? ht).mp hlive).2
  · exact hnew.cancelIssued

/-- An acknowledgement under way stands for a cancel that was issued. -/
lemma Coherent.step_ack (hw : w.Coherent) (h : Step cfg w e w') {ack : Ack}
    (hack : ack ∈ w'.acks) : At (fun t => t.cancelIssued = true ∧
      ∀ spin, ack.callback.clears = some spin → t.isSpin = spin) w'.tickets ack.g := by
  by_cases hold : ack ∈ w.acks
  · obtain ⟨t, ht, hcancel, hkind⟩ := hw.ack ack hold
    obtain ⟨t', ht', hstep⟩ := h.ticket_next ht
    refine ⟨t', ht', ?_⟩
    cases hstep with
    | cancelled => exact ⟨rfl, hkind⟩
    | same | accepted | refused | finished | acknowledged => exact ⟨hcancel, hkind⟩
  · -- a new cancel, for a handle
    have new {g : ℕ} {callback : CancelCallback} (hg : At (fun t => ∀ spin,
        callback.clears = some spin → t.isSpin = spin) w.tickets g) : At (fun t =>
          t.cancelIssued = true ∧ ∀ spin, callback.clears = some spin → t.isSpin = spin)
          (w.tickets.modify g Ticket.cancel) g :=
      at_modify_self.mpr (hg.imp fun t ht => ⟨rfl, ht⟩)
    cases h with
    | goalQueued hm ha hg =>
      obtain rfl : ack = _ := by simpa [hold] using hack
      refine new ((hw.handle false _ hg).imp ?_)
      rintro t ht spin ⟨⟩
      exact ht.1
    | goalQueuedSpin hm ha hg hs =>
      obtain rfl : ack = _ := by simpa [hold] using hack
      refine new ((hw.handle true _ hs).imp ?_)
      rintro t ht spin ⟨⟩
      exact ht.1
    | cancelHonoured =>
      obtain ⟨g, hg, rfl⟩ : ∃ g ∈ w.node.handles, ⟨g, .ignore, w.steps⟩ = ack := by
        simpa [hold] using hack
      obtain ⟨-, -, t, ht, -⟩ := hw.mem_handles hg
      refine (at_modifyAll_of_mem hg (List.getElem?_eq_some_iff.mp ht).1 fun t => ?_)
      exact ⟨rfl, nofun⟩
    | goalAcked | goalAckedSend | spinAcked | spinAckedSend | ackIgnored =>
      exact absurd (List.mem_of_mem_erase hack) hold
    | _ => exact absurd hack hold

theorem Coherent.step (hw : w.Coherent) (h : w.step cfg e = some w') : w'.Coherent where
  handle _ _ hg := hw.step_handle (step_cases h) hg
  unanswered _ _ ht hp := hw.step_unanswered (step_cases h) ht hp
  ack _ hack := hw.step_ack (step_cases h) hack

omit [PyFloat F] in
lemma Coherent.phase_ne_requested (hw : w.Coherent) {ack : Ack} (hack : ack ∈ w.acks)
    (ht : w.tickets[ack.g]? = some t) : t.phase ≠ .requested := by
  intro hp
  have hc := ((at_of_getElem? ht).mp (hw.ack ack hack)).1
  cases hc.symm.trans (hw.unanswered ack.g t ht hp)

theorem coherent_of_run (hrun : Transition.Run (step cfg) {} es w) : w.Coherent :=
  hrun.invariant_state coherent_init fun _ _ _ hw h => hw.step h

end World
end GoalNav
