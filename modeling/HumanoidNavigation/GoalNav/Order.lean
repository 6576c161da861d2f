import HumanoidNavigation.GoalNav.Queue

/-!
# The latest goal wins

Requests should leave in the order in which their goal messages came in. A new goal can leave at
once while an older one still waits in `_pending_goal`; `ordered_iff` shows that this is the only
way to lose the order.
-/

namespace GoalNav

open Transition

variable {F : Type}

namespace World

/-- The goals were sent in the order of their messages. -/
def InOrder (w : World F) : Prop := w.sentGoals.Pairwise fun a b => a.summary < b.summary

instance (w : World F) : Decidable w.InOrder :=
  inferInstanceAs (Decidable (w.sentGoals.Pairwise fun a b => a.summary < b.summary))

variable [PyFloat F]

/-- In order, also after any acknowledgement that may come next. -/
def StaysInOrder (cfg : Config F) (w : World F) : Prop :=
  w.InOrder ∧ ∀ ack now w', w.step cfg (.cancelAck ack now) = some w' → w'.InOrder

/-- A goal that finds the node idle finds the queue empty. -/
def NoOvertaking (cfg : Config F) (w : World F) (e : Event F) : Prop :=
  ∀ goal, w.admitted cfg e = some goal → w.node.activeGoal = none →
    w.node.activeSpin = none → w.node.pendingGoal = none

variable {cfg : Config F} {w w' : World F} {e : Event F} {es : List (Event F)}

/-- The queued goal counts as well, as an acknowledgement is under way that will send it. -/
lemma staysInOrder_iff (hnum : w.Numbered) (hwait : w.Awaited) : w.StaysInOrder cfg ↔
    w.outbox.all.Pairwise fun a b => a.summary < b.summary := by
  constructor
  · rintro ⟨horder, hnext⟩
    cases hq : w.node.pendingGoal with
    | none => simpa [Outbox.all, outbox, hq, InOrder] using horder
    | some goal =>
      obtain ⟨ack, hack, hc, -⟩ := hwait goal hq
      obtain ⟨w', hw', -, hsent⟩ := step_cancelAck_of_pending cfg hack hc hq 0
      have := hnext ack 0 w' hw'
      rw [InOrder, hsent] at this
      simpa [Outbox.all, outbox, hq] using this
  · intro hall
    refine ⟨(List.pairwise_append.mp hall).1, fun ack now w' hw' => ?_⟩
    obtain ⟨action, ha, happly⟩ := (step_cases hw').outbox
    have hlt {a : Goal F} := hnum.lt_item ha a
    refine (List.pairwise_append.mp (Outbox.pairwise_apply happly hall ?_ ?_)).1
    · exact fun a hitem b hb => hlt hitem b hb
    · rintro a rfl b hb
      cases ha with
      | send ha => cases ha

/-- A step keeps the order if and only if no goal overtakes the queued one. -/
lemma step_staysInOrder_iff (hnum : w.Numbered) (hwait : w.Awaited)
    (horder : w.StaysInOrder cfg) (h : Step cfg w e w') :
    w'.StaysInOrder cfg ↔ w.NoOvertaking cfg e := by
  rw [staysInOrder_iff hnum hwait] at horder
  rw [staysInOrder_iff (hnum.step h) (hwait.step h)]
  obtain ⟨action, ha, happly⟩ := h.outbox
  have hlt {a : Goal F} := hnum.lt_item ha a
  constructor
  · intro horder' goal hadm hg hs
    by_contra hq
    obtain ⟨old, hold⟩ := Option.ne_none_iff_exists'.mp hq
    cases ha with
    | @send new ha' =>
      -- the new goal was sent past the older one
      obtain rfl : goal = new := Option.some.inj (hadm.symm.trans ha')
      have holder := hlt rfl old (Outbox.mem_all.mpr (Or.inr hold))
      rw [← Option.some.inj happly] at horder'
      have hnewer := (List.pairwise_append.mp horder').2.2 goal (by simp) old
        (by simp [outbox, hold])
      exact absurd hnewer holder.not_gt
    | enqueue _ hbusy => exact hbusy (by simp [Node.handles, hg, hs])
    | idle ha' | dispatch ha' => cases ha'.symm.trans hadm
    | discard he =>
      subst he
      cases hadm
  · intro hno
    refine Outbox.pairwise_apply happly horder (fun a hitem b hb => hlt hitem b hb) ?_
    rintro a rfl b hb
    cases ha with
    | send ha hg hs => cases (hno a ha hg hs).symm.trans hb

/-- A run sends its goals in order at all times, also after an acknowledgement that may come
next, if and only if no goal of it overtakes a queued one. -/
theorem ordered_iff (hrun : Run (step cfg) {} es w) :
    (∀ pre post u, es = pre ++ post → Run (step cfg) {} pre u → u.StaysInOrder cfg) ↔
      Always (step cfg) {} (NoOvertaking cfg) es := by
  refine forall_prefix_iff_always (I := fun w => w.Numbered ∧ w.Awaited) ?_ ?_ ?_ ?_ hrun
  · exact ⟨numbered_init, awaited_init⟩
  · rintro w e w' ⟨hnum, hwait⟩ h
    exact ⟨hnum.step (step_cases h), hwait.step (step_cases h)⟩
  · rw [staysInOrder_iff numbered_init awaited_init]
    exact List.Pairwise.nil
  · rintro w e w' ⟨hnum, hwait⟩ horder h
    exact step_staysInOrder_iff hnum hwait horder (step_cases h)

section

attribute [local instance] PyFloat.exact

/-- A goal that is accepted, replaced by a second click and cancelled. -/
theorem ordered_iff_replaced : ∃ w, Run (step .defaults) {}
      [.click 1 100 101, .response 0 .accepted 102, .click 2 103 104,
        .cancelAck ⟨0, .onCancelDone, 2⟩ 105] w ∧
    ((∀ pre post u, [.click 1 100 101, .response 0 .accepted 102, .click 2 103 104,
          .cancelAck ⟨0, .onCancelDone, 2⟩ 105] = pre ++ post →
        Run (step .defaults) {} pre u → u.StaysInOrder .defaults) ↔
      Always (step .defaults) {} (NoOvertaking .defaults)
        [.click 1 100 101, .response 0 .accepted 102, .click 2 103 104,
          .cancelAck ⟨0, .onCancelDone, 2⟩ 105]) := by
  obtain ⟨w, hw, -⟩ := exists_run (step .defaults) {}
    [.click 1 100 101, .response 0 .accepted 102, .click 2 103 104,
      .cancelAck ⟨0, .onCancelDone, 2⟩ 105] (fun w => w.tickets.length = 2)
      (by decide +kernel)
  exact ⟨w, hw, ordered_iff hw⟩

/-- The second click waits for the acknowledgement of a cancel, the result of the cancelled goal
comes first and clears the handle, and the third click is sent before the second. -/
theorem third_click_overtakes : ∃ w, Run (step .defaults) {}
    [.click 1 100 101, .response 0 .accepted 102, .click 2 103 104,
      .result 0 (.status .canceled) (fun _ _ => none) true 105, .click 3 106 107,
      .cancelAck ⟨0, .onCancelDone, 2⟩ 108] w ∧ ¬w.InOrder :=
  exists_run _ _ _ (fun w => ¬InOrder w) (by decide +kernel)

end

end World
end GoalNav
