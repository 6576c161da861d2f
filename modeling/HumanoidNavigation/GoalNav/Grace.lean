import HumanoidNavigation.GoalNav.Outstanding

/-!
# The grace period of the operator's cancel

`_on_cancel_navigation` ignores a cancel until `_cancel_ignore_until`. The deadline is meant to
cover the time right after a goal was sent, yet several callbacks write it. `DeadlineFrom` says
which callback wrote it last, over a whole run, and `honoured_iff` what follows for a cancel that
comes late enough after the last request.
-/

namespace GoalNav

open Ledger Transition

variable {F : Type}

namespace World

variable [PyFloat F]

/-- The callback writes the deadline: it sends a request, is told of an acceptance or of
feedback, or clears the deadline. -/
inductive SetsDeadline (cfg : Config F) (w : World F) : Event F → Prop where
  | sends {e : Event F} (h : Sends cfg w e) : SetsDeadline cfg w e
  | accepted (g : ℕ) (now : ℚ) : SetsDeadline cfg w (.response g .accepted now)
  | feedback (g : ℕ) (now : ℚ) : SetsDeadline cfg w (.feedback g now)
  | cleared (now : ℚ) : SetsDeadline cfg w (.cancelNavigation false now)

/-- Feedback, or the acceptance of another request than the last one, that extends the deadline
past `now`. -/
inductive Refreshes (cfg : Config F) (now : ℚ) (w : World F) : Event F → World F → Prop where
  | feedback {w' : World F} (g : ℕ) {τ : ℚ} (h : now < τ + cfg.cancelGraceS) :
      Refreshes cfg now w (.feedback g τ) w'
  | accepted {w' : World F} {g : ℕ} {τ : ℚ} (hg : g + 1 ≠ w.tickets.length)
      (h : now < τ + cfg.cancelGraceS) : Refreshes cfg now w (.response g .accepted τ) w'

/-- The deadline is later than `now` because of a `Refreshes` callback: such a callback wrote it,
and no callback after that one has. -/
def Refreshed (cfg : Config F) (now : ℚ) (es : List (Event F)) : Prop :=
  Since (step cfg) {} (Refreshes cfg now) (fun w e => ¬SetsDeadline cfg w e) es

/-- The last request was sent, and its acceptance received, more than `CANCEL_GRACE_S` ago. -/
def Settled (cfg : Config F) (w : World F) (now : ℚ) : Prop :=
  ∃ t step τ, w.tickets.getLast? = some t ∧ t.sentAt + cfg.cancelGraceS < now ∧
    t.acceptedAt = some (step, τ) ∧ τ + cfg.cancelGraceS < now

omit [PyFloat F] in
/-- A cancel at `now` drops the queued goal and cancels the goals in the handles. -/
def Honours (w : World F) (now : ℚ) : Prop :=
  (w.node.onCancelNavigation true now).1.pendingGoal = none ∧
    ∀ g ∈ w.node.handles, ∃ callback,
      .cancelGoal g callback ∈ (w.node.onCancelNavigation true now).2

variable {cfg : Config F} {w w' : World F} {e : Event F} {es : List (Event F)} {now : ℚ}

/-! ### One step -/

/-- What a step does to the deadline. -/
lemma Step.deadline_cases (h : Step cfg w e w') :
    ¬SetsDeadline cfg w e ∧ w'.node.cancelIgnoreUntil = w.node.cancelIgnoreUntil ∨
    (Sends cfg w e ∧ ∃ t, w'.tickets.getLast? = some t ∧
      w'.node.cancelIgnoreUntil = t.sentAt + cfg.cancelGraceS) ∨
    (∃ g τ, e = .response g .accepted τ ∧ w'.node.cancelIgnoreUntil = τ + cfg.cancelGraceS) ∨
    (∃ g τ, e = .feedback g τ ∧ w'.node.cancelIgnoreUntil = τ + cfg.cancelGraceS) ∨
    ∃ τ, e = .cancelNavigation false τ ∧ w'.node.cancelIgnoreUntil = 0 := by
  rcases h.sends_cases with ⟨hs, ts, t, hts, -, -, hdeadline⟩ | ⟨hs, hlen⟩
  · exact Or.inr (Or.inl ⟨hs, t, by rw [hts, List.getLast?_concat], hdeadline⟩)
  · cases h with
    | goalAccepted | spinAccepted => exact Or.inr (Or.inr (Or.inl ⟨_, _, rfl, rfl⟩))
    | feedback => exact Or.inr (Or.inr (Or.inr (Or.inl ⟨_, _, rfl, rfl⟩)))
    | graceCleared => exact Or.inr (Or.inr (Or.inr (Or.inr ⟨_, rfl, rfl⟩)))
    | goalSent | goalReached | spinFinishedSend | goalAckedSend | spinAckedSend =>
      simp at hlen
    | goalIgnored hm | goalQueued hm | goalQueuedSpin hm =>
      refine Or.inl ⟨?_, rfl⟩
      rintro (h | _)
      · exact hs h
      all_goals cases hm
    | goalRefused _ _ _ _ hr | spinRefused _ _ _ _ hr =>
      refine Or.inl ⟨?_, rfl⟩
      rintro (h | _)
      · exact hs h
      · exact hr rfl
    | _ =>
      refine Or.inl ⟨?_, by simp [Node.onMap, Node.clearGoal, Node.clearSpin]⟩
      rintro ⟨h⟩
      exact hs h

/-- The ledger's last entry and its times stay as they are. -/
lemma Step.getLast_of_not_setsDeadline (h : Step cfg w e w') (hno : ¬SetsDeadline cfg w e)
    {t : Ticket F} (ht : w.tickets.getLast? = some t) :
    ∃ t', w'.tickets.getLast? = some t' ∧ t'.sentAt = t.sentAt ∧
      t'.acceptedAt = t.acceptedAt := by
  rcases h.sends_cases with ⟨hs, -⟩ | ⟨hs, hlen⟩
  · exact absurd (.sends hs) hno
  · rw [List.getLast?_eq_getElem?] at ht
    obtain ⟨t', ht', hstep⟩ := h.ticket_next ht
    refine ⟨t', by rw [List.getLast?_eq_getElem?, hlen, ht'], ?_⟩
    cases hstep with
    | accepted he =>
      subst he
      exact absurd (.accepted _ _) hno
    | _ => exact ⟨rfl, rfl⟩

/-! ### Whole runs -/

/-- Where the deadline comes from. -/
inductive DeadlineFrom (cfg : Config F) (es : List (Event F)) (w : World F) : Prop where
  | cleared (h : w.node.cancelIgnoreUntil = 0) (hr : ∀ now, ¬Refreshed cfg now es)
  | sent {t : Ticket F} (ht : w.tickets.getLast? = some t)
      (h : w.node.cancelIgnoreUntil = t.sentAt + cfg.cancelGraceS)
      (hr : ∀ now, ¬Refreshed cfg now es)
  | accepted {t : Ticket F} {step : ℕ} {τ : ℚ} (ht : w.tickets.getLast? = some t)
      (ha : t.acceptedAt = some (step, τ)) (h : w.node.cancelIgnoreUntil = τ + cfg.cancelGraceS)
      (hr : ∀ now, ¬Refreshed cfg now es)
  | refreshed (hr : ∀ now, Refreshed cfg now es ↔ now < w.node.cancelIgnoreUntil)

/-- A callback that writes the deadline ends what was before. -/
lemma refreshed_snoc_of_setsDeadline (hrun : Run (step cfg) {} es w)
    (he : step cfg w e = some w') (hset : SetsDeadline cfg w e) :
    Refreshed cfg now (es ++ [e]) ↔ Refreshes cfg now w e w' := by
  rw [Refreshed, since_snoc_iff hrun he, or_iff_left fun h => h.2 hset]

lemma refreshed_snoc_of_not_setsDeadline (hrun : Run (step cfg) {} es w)
    (he : step cfg w e = some w') (hset : ¬SetsDeadline cfg w e) (now : ℚ) :
    Refreshed cfg now (es ++ [e]) ↔ Refreshed cfg now es := by
  rw [Refreshed, since_snoc_iff hrun he, and_iff_left hset, or_iff_right, Refreshed]
  rintro ⟨⟩
  · exact hset (.feedback _ _)
  · exact hset (.accepted _ _)

lemma deadlineFrom_of_run (hrun : Run (step cfg) {} es w) : DeadlineFrom cfg es w := by
  induction hrun with
  | nil => exact .cleared rfl fun now => not_since_nil
  | @snoc es w w' e hrun he ih =>
    rcases (step_cases he).deadline_cases with ⟨hset, hd⟩ | ⟨hs, t, ht, hd⟩ | ⟨g, τ, rfl, hd⟩ |
      ⟨g, τ, rfl, hd⟩ | ⟨τ, rfl, hd⟩
    · have hr now := refreshed_snoc_of_not_setsDeadline hrun he hset now
      cases ih with
      | cleared h hno => exact .cleared (hd.trans h) fun now => (hr now).not.mpr (hno now)
      | sent ht h hno =>
        obtain ⟨t', ht', hsent, -⟩ := (step_cases he).getLast_of_not_setsDeadline hset ht
        refine .sent ht' ?_ fun now => (hr now).not.mpr (hno now)
        rw [hd, h, hsent]
      | accepted ht ha h hno =>
        obtain ⟨t', ht', -, hacc⟩ := (step_cases he).getLast_of_not_setsDeadline hset ht
        exact .accepted ht' (hacc.trans ha) (hd.trans h) fun now => (hr now).not.mpr (hno now)
      | refreshed hyes => exact .refreshed fun now => by rw [hr now, hyes now, hd]
    · refine .sent ht hd fun now => ?_
      rw [refreshed_snoc_of_setsDeadline hrun he (.sends hs)]
      rintro ⟨⟩
      · cases hs with
        | goal ha => cases ha
      · exact hs.ne_response rfl
    · have hset : SetsDeadline cfg w (.response g .accepted τ) := .accepted g τ
      obtain ⟨t, ht, -⟩ := (step_cases he).exists_ticket
      have hlen : w'.tickets.length = w.tickets.length := by
        rcases (step_cases he).sends_cases with ⟨hs, -⟩ | ⟨-, hlen⟩
        · exact absurd rfl hs.ne_response
        · exact hlen
      by_cases hg : g + 1 = w.tickets.length
      · -- the last request is accepted
        refine .accepted (t := t.accept w.steps τ) ?_ rfl hd fun now => ?_
        · rw [List.getLast?_eq_getElem?, hlen, ← hg, Nat.add_sub_cancel]
          exact (step_cases he).ticket_accepted ht
        · rw [refreshed_snoc_of_setsDeadline hrun he hset]
          rintro ⟨⟩
          contradiction
      · refine .refreshed fun now => ?_
        rw [refreshed_snoc_of_setsDeadline hrun he hset, hd]
        exact ⟨fun h => by cases h; assumption, .accepted hg⟩
    · refine .refreshed fun now => ?_
      rw [refreshed_snoc_of_setsDeadline hrun he (.feedback g τ), hd]
      exact ⟨fun h => by cases h; assumption, .feedback g⟩
    · refine .cleared hd fun now => ?_
      rw [refreshed_snoc_of_setsDeadline hrun he (.cleared τ)]
      rintro ⟨⟩

/-! ### The operator's cancel -/

omit [PyFloat F] in
lemma honours_of_le (h : w.node.cancelIgnoreUntil ≤ now) : w.Honours now := by
  refine ⟨?_, fun g hg => ?_⟩
  · simp [Node.onCancelNavigation, h.not_gt]
  · exact ⟨.ignore, by simp [Node.onCancelNavigation, h.not_gt, Node.cancelAll, hg]⟩

omit [PyFloat F] in
lemma honours_iff_of_lt (h : now < w.node.cancelIgnoreUntil) :
    w.Honours now ↔ w.node.pendingGoal = none ∧ w.node.handles = [] := by
  simp [Honours, Node.onCancelNavigation, h, List.eq_nil_iff_forall_not_mem]

/-- A cancel that comes more than `CANCEL_GRACE_S` after the last request was sent and accepted
is honoured if and only if there is nothing to cancel, or the deadline was not moved past it by
feedback or by the acceptance of another request. -/
theorem honours_iff (hrun : Run (step cfg) {} es w) (hnow : 0 ≤ now) (hset : w.Settled cfg now) :
    w.Honours now ↔
      (w.node.pendingGoal = none ∧ w.node.handles = []) ∨ ¬Refreshed cfg now es := by
  obtain ⟨t, step, τ, ht, hsent, hacc, haccepted⟩ := hset
  have honoured (hle : w.node.cancelIgnoreUntil ≤ now) (hr : ¬Refreshed cfg now es) :
      w.Honours now ↔
        (w.node.pendingGoal = none ∧ w.node.handles = []) ∨ ¬Refreshed cfg now es :=
    iff_of_true (honours_of_le hle) (Or.inr hr)
  cases deadlineFrom_of_run hrun with
  | cleared h hr => exact honoured (h.le.trans hnow) (hr now)
  | sent ht' h hr =>
    obtain rfl := Option.some.inj (ht.symm.trans ht')
    exact honoured (h.le.trans hsent.le) (hr now)
  | accepted ht' ha h hr =>
    obtain rfl := Option.some.inj (ht.symm.trans ht')
    cases hacc.symm.trans ha
    exact honoured (h.le.trans haccepted.le) (hr now)
  | refreshed hr =>
    by_cases hlt : now < w.node.cancelIgnoreUntil
    · rw [honours_iff_of_lt hlt, or_iff_left (not_not.mpr ((hr now).mpr hlt))]
    · exact honoured (not_lt.mp hlt) ((hr now).not.mpr hlt)

section

attribute [local instance] PyFloat.exact

/-- A cancel without any feedback before it. -/
theorem honours_iff_without_feedback : ∃ w, Run (step .defaults) {}
      [.click 1 100 101, .response 0 .accepted 102] w ∧
    (w.Honours 120 ↔ (w.node.pendingGoal = none ∧ w.node.handles = []) ∨
      ¬Refreshed .defaults 120 [.click 1 100 101, .response 0 .accepted 102]) := by
  obtain ⟨w, hw, t, ht, hs, ha⟩ := exists_run (step .defaults) {}
    [.click 1 100 101, .response 0 .accepted 102]
    (fun w => ∃ t ∈ w.tickets.getLast?, t.sentAt = 101 ∧ t.acceptedAt = some (1, 102))
    (by decide +kernel)
  refine ⟨w, hw, honours_iff hw (by decide +kernel) ⟨t, 1, 102, ht, ?_, ha, ?_⟩⟩
  · rw [hs]
    decide +kernel
  · decide +kernel

/-- Feedback one second before the cancel: the goal stays in its handle and goes on. -/
theorem feedback_blocks_cancel : ∃ w, Run (step .defaults) {}
    [.click 1 100 101, .response 0 .accepted 102, .feedback 0 119] w ∧
    w.Settled .defaults 120 ∧ ¬w.Honours 120 := by
  obtain ⟨w, hw, ⟨t, ht, hs, ha⟩, hlt, hhandles⟩ := exists_run (step .defaults)
    {} [.click 1 100 101, .response 0 .accepted 102, .feedback 0 119]
    (fun w => (∃ t ∈ w.tickets.getLast?, t.sentAt = 101 ∧ t.acceptedAt = some (1, 102)) ∧
      120 < w.node.cancelIgnoreUntil ∧ w.node.handles ≠ []) (by decide +kernel)
  refine ⟨w, hw, ⟨t, 1, 102, ht, ?_, ha, by decide +kernel⟩, ?_⟩
  · rw [hs]
    decide +kernel
  · rw [honours_iff_of_lt hlt]
    exact fun h => hhandles h.2

end

end World
end GoalNav
