import HumanoidNavigation.GoalNav.Handles

/-!
# Goal tracking

The goals that drive the robot are the accepted ones with no result and no cancel. `Tracks`
states what the handles are for: the goal of each kind that was accepted last is found through
its handle while it drives the robot, so that `cancel_navigation` reaches every such goal. By
`tracks_iff` this is the same as every driving goal being in its handle, and a step keeps it
exactly when the callback is not for one goal while another one of its kind is driving.
-/

namespace GoalNav

open Ledger Transition

variable {F : Type} {spin : Bool}

/-- Accepted, with no result yet and no cancel issued. -/
def Ticket.Driving (spin : Bool) (t : Ticket F) : Prop := t.Live spin ∧ t.cancelIssued = false

instance : DecidablePred (Ticket.Driving (F := F) spin) := fun t =>
  inferInstanceAs (Decidable ((t.isSpin = spin ∧ t.phase = .accepted) ∧ t.cancelIssued = false))

namespace World

/-- The goal `g` is the one of its kind that was accepted last. -/
def AcceptedLast (w : World F) (spin : Bool) (g : ℕ) : Prop :=
  ∃ t step, w.tickets[g]? = some t ∧ t.isSpin = spin ∧ t.acceptedAt.map Prod.fst = some step ∧
    ∀ (h : ℕ) (t' : Ticket F) step', w.tickets[h]? = some t' → t'.isSpin = spin →
      t'.acceptedAt.map Prod.fst = some step' → step' ≤ step

/-- Goal tracking: the handle of each kind is the goal that was accepted last, while it drives
the robot, and a cancel after the grace period reaches every driving goal. -/
structure Tracks (w : World F) : Prop where
  latest : ∀ spin g, w.AcceptedLast spin g → At (Ticket.Driving spin) w.tickets g →
    w.node.handle spin = some g
  cancel : ∀ spin g, At (Ticket.Driving spin) w.tickets g →
    ∀ now, w.node.cancelIgnoreUntil ≤ now →
      ∃ callback, .cancelGoal g callback ∈ (w.node.onCancelNavigation true now).2

variable {w w' : World F} {e : Event F} {es : List (Event F)} {g : ℕ}

lemma mem_onCancelNavigation {now : ℚ} (hnow : w.node.cancelIgnoreUntil ≤ now) :
    (∃ callback, .cancelGoal g callback ∈ (w.node.onCancelNavigation true now).2) ↔
      g ∈ w.node.handles := by
  simp [Node.onCancelNavigation, hnow.not_gt, Node.cancelAll]

/-- Tracking means that every driving goal is in its handle. -/
lemma tracks_iff (hw : w.Coherent) :
    w.Tracks ↔ ∀ spin g, At (Ticket.Driving spin) w.tickets g → w.node.handle spin = some g := by
  constructor
  · intro h spin g hg
    obtain ⟨spin', hg', hlive⟩ := hw.mem_handles
      ((mem_onCancelNavigation le_rfl).mp (h.cancel spin g hg _ le_rfl))
    obtain ⟨t, -, hdrive, hlive⟩ := hg.and hlive
    obtain rfl : spin = spin' := hdrive.1.1.symm.trans hlive.1
    exact hg'
  · intro h
    refine ⟨fun spin g _ => h spin g, fun spin g hg now hnow => ?_⟩
    rw [mem_onCancelNavigation hnow, Node.mem_handles]
    cases spin with
    | false => exact Or.inl (h false g hg)
    | true => exact Or.inr (h true g hg)

/-- When a callback assigns a handle for a goal, no other goal of its kind is driving. -/
def Alone (w : World F) (e : Event F) : Prop :=
  ∀ spin g, Settles w spin e g → ∀ h, h ≠ g → ¬At (Ticket.Driving spin) w.tickets h

variable [PyFloat F] {cfg : Config F}

/-- A step for the goal `g` leaves the other goals driving. -/
lemma Step.driving_of_settles (h : Step cfg w e w') {spin' : Bool} (hs : Settles w spin' e g)
    {k : ℕ} (hk : k ≠ g) (hdrive : At (Ticket.Driving spin) w.tickets k) :
    At (Ticket.Driving spin) w'.tickets k := by
  obtain ⟨t, ht, hlive, hcancel⟩ := hdrive
  obtain ⟨t', ht', hstep⟩ := h.ticket_next ht
  refine ⟨t', ht', ?_⟩
  cases hstep with
  | same | acknowledged => exact ⟨hlive, hcancel⟩
  | accepted _ hp | refused _ _ hp => cases hp.symm.trans hlive.2
  | finished he =>
    subst he
    cases hs
    exact absurd rfl hk
  | cancelled he =>
    cases hs <;> rcases he with he | ⟨now, he⟩ <;> cases he

/-- A goal that is driving after a step was driving before it or was accepted by it. -/
lemma Step.driving_cases (h : Step cfg w e w') (hg : At (Ticket.Driving spin) w'.tickets g) :
    At (Ticket.Driving spin) w.tickets g ∨
      Settles w spin e g ∧ ∃ now, e = .response g .accepted now := by
  obtain ⟨t', ht', hlive, hcancel⟩ := hg
  rcases h.ticket_cases ht' with ⟨t, ht, hstep⟩ | ⟨-, hnew⟩
  · cases hstep with
    | same => exact Or.inl ⟨t', ht, hlive, hcancel⟩
    | acknowledged => exact Or.inl ⟨t, ht, hlive, hcancel⟩
    | accepted he hp =>
      subst he
      exact Or.inr ⟨.accepted _ ht hp hlive.1, _, rfl⟩
    | refused | finished => cases hlive.2
    | cancelled => cases hcancel
  · cases hnew.phase.symm.trans hlive.2

/-- The goal of a callback that clears a handle is not driving any more. -/
lemma Step.not_driving_of_settles (hw : w.Coherent) (h : Step cfg w e w')
    (hs : Settles w spin e g) (hno : ∀ now, e ≠ .response g .accepted now) {spin' : Bool} :
    ¬At (Ticket.Driving spin') w'.tickets g := by
  rintro ⟨t', ht', hlive, hcancel⟩
  cases hs with
  | accepted now => exact hno now rfl
  | finished o tf server now ht =>
    cases (h.ticket_finished ht).symm.trans ht'
    cases hlive.2
  | acknowledged now ha =>
    obtain ⟨t, ht, hc, -⟩ := hw.ack _ ha
    cases (h.ticket_acknowledged ht).symm.trans ht'
    cases hc.symm.trans hcancel

/-- A step keeps the tracking if and only if it is not for one goal while another one of its
kind is driving. -/
theorem step_tracks_iff (hw : w.Coherent) (hw' : w'.Coherent) (htrack : w.Tracks)
    (h : Step cfg w e w') : w'.Tracks ↔ w.Alone e := by
  rw [tracks_iff hw] at htrack
  rw [tracks_iff hw']
  constructor
  · intro htrack' spin g hs k hk hdrive
    have hk' := htrack' spin k (h.driving_of_settles hs hk hdrive)
    rcases h.handle_cases spin with ⟨g', now, -, hs', hg'⟩ | ⟨g', -, hs', hg'⟩ | ⟨hs', -⟩
    · obtain rfl := hs.unique hs'
      exact hk (Option.some.inj (hk'.symm.trans hg'))
    · cases hk'.symm.trans hg'
    · exact hs' g hs
  · intro halone spin k hk
    rcases h.handle_cases spin with ⟨g, now, -, hs, hg⟩ | ⟨g, hno, hs, hg⟩ | ⟨hs, hh⟩
    · -- accepted: only the new goal can be driving
      rcases h.driving_cases hk with hdrive | ⟨hs', -⟩
      · obtain rfl : k = g := not_not.mp fun hne => halone spin g hs k hne hdrive
        exact hg
      · rwa [hs'.unique hs]
    · -- cleared: no goal can be driving
      rcases h.driving_cases hk with hdrive | ⟨hs', now, he⟩
      · obtain rfl : k = g := not_not.mp fun hne => halone spin g hs k hne hdrive
        exact absurd hk (h.not_driving_of_settles hw hs hno)
      · exact absurd (hs'.unique hs ▸ he) (hno now)
    · rcases h.driving_cases hk with hdrive | ⟨hs', -⟩
      · rcases hh with hh | ⟨-, -, hcancel⟩
        · rw [hh, htrack spin k hdrive]
        · -- the operator's cancel
          obtain ⟨t', ht', -, hc⟩ := hk
          have hmem : k ∈ w.node.handles := by
            rw [Node.mem_handles]
            cases spin with
            | false => exact Or.inl (htrack false k hdrive)
            | true => exact Or.inr (htrack true k hdrive)
          cases (hcancel k hmem t' ht').symm.trans hc
      · exact absurd hs' (hs k)

/-- A run tracks its goals at all times if and only if no callback of it is for one goal while
another one of its kind is driving. -/
theorem tracks_iff_always (hrun : Run (step cfg) {} es w) :
    (∀ pre post u, es = pre ++ post → Run (step cfg) {} pre u → u.Tracks) ↔
      Always (step cfg) {} Alone es := by
  refine forall_prefix_iff_always coherent_init (fun _ _ _ hw h => hw.step h) ?_ ?_ hrun
  · rw [tracks_iff coherent_init]
    intro spin g hg
    simp at hg
  · intro w e w' hw htrack h
    exact step_tracks_iff hw (hw.step h) htrack (step_cases h)

section

attribute [local instance] PyFloat.exact

/-- A goal that is accepted, replaced by a second click and cancelled. -/
theorem tracks_iff_always_replaced : ∃ w, Run (step .defaults) {}
      [.click 1 100 101, .response 0 .accepted 102, .click 2 103 104,
        .cancelAck ⟨0, .onCancelDone, 2⟩ 105] w ∧
    ((∀ pre post u, [.click 1 100 101, .response 0 .accepted 102, .click 2 103 104,
          .cancelAck ⟨0, .onCancelDone, 2⟩ 105] = pre ++ post →
        Run (step .defaults) {} pre u → u.Tracks) ↔
      Always (step .defaults) {} Alone
        [.click 1 100 101, .response 0 .accepted 102, .click 2 103 104,
          .cancelAck ⟨0, .onCancelDone, 2⟩ 105]) := by
  obtain ⟨w, hw, -⟩ := exists_run (step .defaults) {}
    [.click 1 100 101, .response 0 .accepted 102, .click 2 103 104,
      .cancelAck ⟨0, .onCancelDone, 2⟩ 105] (fun w => w.tickets.length = 2)
      (by decide +kernel)
  exact ⟨w, hw, tracks_iff_always hw⟩

/-- The second goal is accepted before the result of the first one, which was cancelled, comes
in and clears the handle: no cancel reaches the second goal any more. -/
theorem late_result_untracked : ∃ w, Run (step .defaults) {}
    [.click 1 100 101, .response 0 .accepted 102, .click 2 103 104,
      .cancelAck ⟨0, .onCancelDone, 2⟩ 105, .response 1 .accepted 106,
      .result 0 (.status .canceled) (fun _ _ => none) true 107] w ∧ ¬w.Tracks := by
  obtain ⟨w, hw, hdrive, hnode⟩ := exists_run (step .defaults) {}
    [.click 1 100 101, .response 0 .accepted 102, .click 2 103 104,
      .cancelAck ⟨0, .onCancelDone, 2⟩ 105, .response 1 .accepted 106,
      .result 0 (.status .canceled) (fun _ _ => none) true 107]
    (fun w => At (Ticket.Driving false) w.tickets 1 ∧ w.node.handles = [])
    (by decide +kernel)
  refine ⟨w, hw, fun htrack => ?_⟩
  have hmem := (mem_onCancelNavigation le_rfl).mp (htrack.cancel false 1 hdrive _ le_rfl)
  simp [hnode] at hmem

end

end World
end GoalNav
