import HumanoidNavigation.GoalPlan.Node
import HumanoidNavigation.Transition.Ledger
import HumanoidNavigation.Transition.Run

/-!
# Tracking of the preview goal

`World` is the node together with the ledgers of its planner requests and of its `FollowPath`
requests. The servers are free: requests are answered at any time, accepted goals yield their
results at any time, and cancel acknowledgements come at any time.

The node should know the one `FollowPath` goal that is running, and it should run the path of the
plan that was requested last. No callback looks at the goal that it is called for, so this depends
on the order of the callbacks. `tracks_iff_inTurn` says exactly which callbacks break it.
-/

namespace GoalPlan

open GoalNav (PoseStamped Response GoalStatus)
open Ledger Transition

variable {F : Type}

/-! ### The ledgers -/

inductive Phase where
  | requested
  /-- rejected, or the request failed -/
  | refused
  | accepted
  | finished
  deriving DecidableEq

/-- A planner request. -/
structure Plan (F : Type) where
  goal : PoseStamped F
  phase : Phase := .requested
  deriving DecidableEq

/-- A `FollowPath` request. `plan` is the number of the planner request that its path comes from,
`latest` that of the most recent one when it was sent. -/
structure Preview (F : Type) where
  path : Path F
  plan : ℕ
  latest : ℕ
  phase : Phase := .requested
  cancelIssued : Bool := false
  cancelAcked : Bool := false
  deriving DecidableEq

structure World (F : Type) where
  node : Node := {}
  plans : List (Plan F) := []
  previews : List (Preview F) := []
  published : List (Path F) := []
  deriving DecidableEq

inductive Event (F : Type) where
  | map
  | goalPose (goal : PoseStamped F)
  | planResponse (i : ℕ) (response : Response)
  | planResult (i : ℕ) (outcome : PlanOutcome F) (server : Bool)
  | previewResponse (g : ℕ) (response : Response)
  /-- the result is only logged -/
  | previewResult (g : ℕ)
  | cancelAck (g : ℕ)
  deriving DecidableEq

def Plan.setPhase (phase : Phase) (p : Plan F) : Plan F := { p with phase := phase }

def Preview.setPhase (phase : Phase) (p : Preview F) : Preview F := { p with phase := phase }

def Preview.cancel (p : Preview F) : Preview F := { p with cancelIssued := true }

def Preview.acknowledge (p : Preview F) : Preview F := { p with cancelAcked := true }

/-- An accepted `FollowPath` goal that has no result and was not cancelled. -/
def Preview.Live (p : Preview F) : Prop := p.phase = .accepted ∧ p.cancelIssued = false

instance : DecidablePred (Preview.Live (F := F)) := fun p =>
  inferInstanceAs (Decidable (p.phase = .accepted ∧ p.cancelIssued = false))

/-- The phase after a response. -/
def answer (response : Response) : Phase := if response = .accepted then .accepted else .refused

namespace World

/-- Carry out one call of a callback for the planner request `i`. -/
def perform (i : ℕ) (w : World F) : Effect F → World F
  | .computePathToPose goal => { w with plans := w.plans ++ [{ goal }] }
  | .publishPlan path => { w with published := w.published ++ [path] }
  | .followPath path =>
    { w with previews := w.previews ++ [{ path, plan := i, latest := w.plans.length - 1 }] }
  | .cancelGoal g => { w with previews := w.previews.modify g Preview.cancel }

/-- Deliver one event; `none` when it cannot happen. -/
def step (w : World F) : Event F → Option (World F)
  | .map => some { w with node := w.node.onMap }
  | .goalPose goal => some ((w.node.onGoal goal).foldl (perform w.plans.length) w)
  | .planResponse i response =>
    if At (fun p => p.phase = .requested) w.plans i then
      some { w with plans := w.plans.modify i (Plan.setPhase (answer response)) }
    else none
  | .planResult i outcome server =>
    if At (fun p => p.phase = .accepted) w.plans i then
      let r := w.node.onResult outcome server
      some (r.2.foldl (perform i)
        { w with node := r.1, plans := w.plans.modify i (Plan.setPhase .finished) })
    else none
  | .previewResponse g response =>
    if At (fun p => p.phase = .requested) w.previews g then
      some { w with
        node := w.node.onPreviewGoalResponse g response
        previews := w.previews.modify g (Preview.setPhase (answer response)) }
    else none
  | .previewResult g =>
    if At (fun p => p.phase = .accepted) w.previews g then
      some { w with
        node := w.node.onPreviewResult
        previews := w.previews.modify g (Preview.setPhase .finished) }
    else none
  | .cancelAck g =>
    if At (fun p => p.cancelIssued = true ∧ p.cancelAcked = false) w.previews g then
      some { w with previews := w.previews.modify g Preview.acknowledge }
    else none

/-! ### The cases of a step -/

/-- The result of a planner goal is a path, and the controller is ready for it. -/
def Sends (outcome : PlanOutcome F) (server : Bool) : Prop :=
  server = true ∧ ∃ path, outcome = .wrapped .succeeded path ∧ path.poses ≠ []

/-- What a step does to the handle and to the `FollowPath` requests. -/
inductive Step (w : World F) : Event F → Option ℕ → List (Preview F) → Prop where
  | other {e : Event F} (hplan : ∀ i outcome server, e = .planResult i outcome server →
        ¬Sends outcome server)
      (hresponse : ∀ g, e ≠ .previewResponse g .accepted) (hresult : ∀ g, e ≠ .previewResult g) :
      Step w e w.node.controllerGoal w.previews
  | sent {i : ℕ} {outcome : PlanOutcome F} {server : Bool} (path : Path F)
      (hsends : Sends outcome server) :
      Step w (.planResult i outcome server) none
        (modifyAll Preview.cancel w.previews w.node.controllerGoal.toList ++
          [{ path, plan := i, latest := w.plans.length - 1 }])
  | refused {g : ℕ} {response : Response}
      (hg : At (fun p => p.phase = .requested) w.previews g) (hr : response ≠ .accepted) :
      Step w (.previewResponse g response) w.node.controllerGoal
        (w.previews.modify g (Preview.setPhase .refused))
  | accepted {g : ℕ} (hg : At (fun p => p.phase = .requested) w.previews g) :
      Step w (.previewResponse g .accepted) (some g)
        (w.previews.modify g (Preview.setPhase .accepted))
  | finished {g : ℕ} (hg : At (fun p => p.phase = .accepted) w.previews g) :
      Step w (.previewResult g) none (w.previews.modify g (Preview.setPhase .finished))
  | acknowledged (g : ℕ) :
      Step w (.cancelAck g) w.node.controllerGoal (w.previews.modify g Preview.acknowledge)

variable {w w' : World F} {e : Event F} {es : List (Event F)} {g : ℕ}

lemma step_planResult {i : ℕ} {outcome : PlanOutcome F} {server : Bool}
    (he : w.step (.planResult i outcome server) = some w') :
    w.Step (.planResult i outcome server) w'.node.controllerGoal w'.previews := by
  simp only [step, Option.ite_none_right_eq_some, Option.some.injEq] at he
  obtain ⟨-, rfl⟩ := he
  have hother (h : ¬Sends outcome server) : w.Step (.planResult i outcome server)
      w.node.controllerGoal w.previews := by
    refine .other ?_ (by simp) (by simp)
    rintro i' outcome' server' heq
    cases heq
    exact h
  match outcome with
  | .failed => exact hother (by simp [Sends])
  | .wrapped status path =>
    by_cases hpath : status = .succeeded ∧ path.poses ≠ []
    · cases server with
      | false =>
        simp only [Node.onResult, if_pos hpath, Node.startPreview]
        exact hother (by simp [Sends])
      | true =>
        have hsends : Sends (.wrapped status path) true :=
          ⟨rfl, path, by rw [hpath.1], hpath.2⟩
        have hsent := Step.sent (w := w) (i := i) path.inMap hsends
        cases hgoal : w.node.controllerGoal with
        | none => simpa [Node.onResult, hpath, Node.startPreview, hgoal, perform] using hsent
        | some g => simpa [Node.onResult, hpath, Node.startPreview, hgoal, perform] using hsent
    · simp only [Node.onResult, if_neg hpath]
      refine hother ?_
      rintro ⟨-, path', heq, hne⟩
      cases heq
      exact hpath ⟨rfl, hne⟩

/-- The inversion lemma for steps. -/
lemma step_cases (he : w.step e = some w') : w.Step e w'.node.controllerGoal w'.previews := by
  cases e with
  | map =>
    obtain rfl := Option.some.inj he
    exact .other (by simp) (by simp) (by simp)
  | goalPose goal =>
    obtain rfl := Option.some.inj he
    simp only [Node.onGoal]
    split_ifs <;> exact .other (by simp) (by simp) (by simp)
  | planResponse i response =>
    simp only [step, Option.ite_none_right_eq_some, Option.some.injEq] at he
    obtain ⟨-, rfl⟩ := he
    exact .other (by simp) (by simp) (by simp)
  | planResult i outcome server => exact step_planResult he
  | previewResponse g response =>
    simp only [step, Option.ite_none_right_eq_some, Option.some.injEq] at he
    obtain ⟨hg, rfl⟩ := he
    by_cases hr : response = .accepted
    · subst hr
      exact .accepted hg
    · simp only [Node.onPreviewGoalResponse, answer, if_neg hr]
      exact .refused hg hr
  | previewResult g =>
    simp only [step, Option.ite_none_right_eq_some, Option.some.injEq] at he
    obtain ⟨hg, rfl⟩ := he
    exact .finished hg
  | cancelAck g =>
    simp only [step, Option.ite_none_right_eq_some, Option.some.injEq] at he
    obtain ⟨-, rfl⟩ := he
    exact .acknowledged g

/-! ### Live goals -/

section

variable {p : Preview F}

lemma not_live_cancel : ¬p.cancel.Live := by simp [Preview.Live, Preview.cancel]

lemma not_live_setPhase {phase : Phase} (h : phase ≠ .accepted) : ¬(p.setPhase phase).Live := by
  simp [Preview.Live, Preview.setPhase, h]

lemma live_acknowledge : p.acknowledge.Live ↔ p.Live := Iff.rfl

end

/-- The handle is that of a live goal, and no goal is cancelled before it is accepted. -/
structure Coherent (goal : Option ℕ) (previews : List (Preview F)) : Prop where
  live : ∀ g, goal = some g → At Preview.Live previews g
  fresh : ∀ g, At (fun p => p.phase = .requested) previews g →
    At (fun p => p.cancelIssued = false) previews g

/-- No goal but the one in the handle is live. -/
def OnlyLive (goal : Option ℕ) (previews : List (Preview F)) : Prop :=
  ∀ g, At Preview.Live previews g → goal = some g

variable {goal : Option ℕ} {previews : List (Preview F)}

lemma at_live_modify {f : Preview F → Preview F} (hf : ∀ p, ¬(f p).Live) {h : ℕ} :
    At Preview.Live (previews.modify g f) h ↔ g ≠ h ∧ At Preview.Live previews h :=
  at_modify_of_not hf

/-- When the goal in the handle has been cancelled, no goal is live that was not before. -/
lemma not_live_cancelled (h : OnlyLive goal previews) (i : ℕ) :
    ¬At Preview.Live (modifyAll Preview.cancel previews goal.toList) i := by
  cases goal with
  | none =>
    intro hi
    cases h i hi
  | some g =>
    rw [Option.toList_some, modifyAll_cons, modifyAll_nil, at_live_modify fun _ => not_live_cancel]
    rintro ⟨hne, hi⟩
    exact hne (Option.some.inj (h i hi))

lemma ne_of_requested_of_live {g h : ℕ} (hg : At (fun p => p.phase = .requested) previews g)
    (hh : At Preview.Live previews h) : g ≠ h := by
  rintro rfl
  refine hg.elim hh ?_
  rintro p hrequested ⟨haccepted, -⟩
  rw [hrequested] at haccepted
  cases haccepted

/-- A change of phase leaves no goal cancelled that is still requested. -/
lemma Coherent.fresh_setPhase (hw : Coherent goal previews) {phase : Phase}
    (hphase : phase ≠ .requested) {h g : ℕ}
    (hg : At (fun p => p.phase = .requested) (previews.modify h (Preview.setPhase phase)) g) :
    At (fun p => p.cancelIssued = false) (previews.modify h (Preview.setPhase phase)) g := by
  rw [at_modify_of_not fun p => (show ¬(p.setPhase phase).phase = .requested from hphase)] at hg
  exact (at_modify_of_ne hg.1).mpr (hw.fresh g hg.2)

lemma coherent_step (hw : Coherent w.node.controllerGoal w.previews) (he : w.step e = some w') :
    Coherent w'.node.controllerGoal w'.previews := by
  have hstep := step_cases he
  generalize w'.node.controllerGoal = goal at hstep ⊢
  generalize w'.previews = previews at hstep ⊢
  cases hstep with
  | other => exact hw
  | sent path =>
    refine ⟨by simp, fun g hg => ?_⟩
    rcases at_concat.mp hg with hg | ⟨rfl, -⟩
    · refine at_concat.mpr (Or.inl ?_)
      -- the goal that is cancelled was accepted
      cases hgoal : w.node.controllerGoal with
      | none =>
        rw [hgoal] at hg
        exact hw.fresh g hg
      | some h =>
        rw [hgoal, Option.toList_some, modifyAll_cons, modifyAll_nil] at hg
        rw [Option.toList_some, modifyAll_cons, modifyAll_nil]
        replace hg := (at_modify_of_iff (f := Preview.cancel) fun _ => Iff.rfl).mp hg
        have hne := ne_of_requested_of_live hg (hw.live h hgoal)
        exact (at_modify_of_ne hne.symm).mpr (hw.fresh g hg)
    · exact at_concat.mpr (Or.inr ⟨rfl, rfl⟩)
  | @refused h response hg hr =>
    refine ⟨fun g hgoal => ?_, fun g hreq => hw.fresh_setPhase (by simp) hreq⟩
    have hlive := hw.live g hgoal
    exact (at_modify_of_ne (ne_of_requested_of_live hg hlive)).mpr hlive
  | @accepted h hg =>
    refine ⟨fun g hgoal => ?_, fun g hreq => hw.fresh_setPhase (by simp) hreq⟩
    obtain rfl := Option.some.inj hgoal
    refine at_modify_self.mpr ((hw.fresh h hg).imp ?_)
    exact fun p hp => ⟨rfl, hp⟩
  | @finished h hg =>
    exact ⟨by simp, fun g hreq => hw.fresh_setPhase (by simp) hreq⟩
  | acknowledged h =>
    refine ⟨fun g hgoal => ?_, fun g hreq => ?_⟩
    · exact (hw.live g hgoal).modify fun p hp => hp
    · have hreq' := (at_modify_of_iff (f := Preview.acknowledge) fun _ => Iff.rfl).mp hreq
      exact (hw.fresh g hreq').modify fun p hp => hp

/-! ### Tracking -/

/-- The node tracks its preview: without a handle no goal is live, at most one goal is live, and
every path that was sent belongs to the plan that was requested last. -/
structure Tracks (w : World F) : Prop where
  handle : w.node.controllerGoal = none → ∀ g, ¬At Preview.Live w.previews g
  unique : ∀ g h, At Preview.Live w.previews g → At Preview.Live w.previews h → g = h
  latest : ∀ p ∈ w.previews, p.plan = p.latest

/-- A plan is sent only if it was requested last, a goal is accepted only while there is no
handle, and a result comes only for the goal in the handle. -/
def InTurn (w : World F) : Event F → Prop
  | .planResult i outcome server => Sends outcome server → i = w.plans.length - 1
  | .previewResponse _ response => response = .accepted → w.node.controllerGoal = none
  | .previewResult g => ∀ h, w.node.controllerGoal = some h → h = g
  | .map | .goalPose _ | .planResponse _ _ | .cancelAck _ => True

lemma tracks_iff (hw : Coherent w.node.controllerGoal w.previews) :
    w.Tracks ↔ OnlyLive w.node.controllerGoal w.previews ∧
      ∀ p ∈ w.previews, p.plan = p.latest := by
  constructor
  · intro h
    refine ⟨fun g hg => ?_, h.latest⟩
    cases hgoal : w.node.controllerGoal with
    | none => exact absurd hg (h.handle hgoal g)
    | some h' => rw [h.unique g h' hg (hw.live h' hgoal)]
  · rintro ⟨honly, hlatest⟩
    refine ⟨fun hnone g hg => ?_, fun g h hg hh => ?_, hlatest⟩
    · rw [honly g hg] at hnone
      cases hnone
    · exact Option.some.inj ((honly g hg).symm.trans (honly h hh))

/-- Changing the phase or the cancel of a goal does not matter to its plan. -/
lemma latest_modify {f : Preview F → Preview F}
    (hf : ∀ p, (f p).plan = p.plan ∧ (f p).latest = p.latest)
    (h : ∀ p ∈ previews, p.plan = p.latest) (i : ℕ) :
    ∀ p ∈ previews.modify i f, p.plan = p.latest := by
  intro p hp
  obtain ⟨j, hj⟩ := List.mem_iff_getElem?.mp hp
  obtain ⟨q, hq, ⟨-, rfl⟩ | ⟨-, rfl⟩⟩ := getElem?_modify_cases hj
  · rw [(hf q).1, (hf q).2]
    exact h q (List.mem_of_getElem? hq)
  · exact h p (List.mem_of_getElem? hq)

lemma latest_modifyAll {f : Preview F → Preview F}
    (hf : ∀ p, (f p).plan = p.plan ∧ (f p).latest = p.latest)
    (h : ∀ p ∈ previews, p.plan = p.latest) (is : List ℕ) :
    ∀ p ∈ modifyAll f previews is, p.plan = p.latest := by
  induction is generalizing previews with
  | nil => exact h
  | cons i is ih => exact ih (latest_modify hf h i)

/-- A step keeps tracking exactly when it is in turn. -/
lemma tracks_step_iff (hw : Coherent w.node.controllerGoal w.previews) (h : w.Tracks)
    (he : w.step e = some w') : w'.Tracks ↔ w.InTurn e := by
  rw [tracks_iff (coherent_step hw he)]
  obtain ⟨honly, hlatest⟩ := (tracks_iff hw).mp h
  have hstep := step_cases he
  generalize w'.node.controllerGoal = goal at hstep ⊢
  generalize w'.previews = previews at hstep ⊢
  cases hstep with
  | other hplan hresponse hresult =>
    refine iff_of_true ⟨honly, hlatest⟩ ?_
    cases e with
    | planResult i outcome server => exact fun hsends => absurd hsends (hplan i _ _ rfl)
    | previewResponse g response =>
      rintro rfl
      exact absurd rfl (hresponse g)
    | previewResult g => exact absurd rfl (hresult g)
    | map | goalPose | planResponse | cancelAck => trivial
  | @sent i outcome server path hsends =>
    have hold := latest_modifyAll (f := Preview.cancel) (fun _ => ⟨rfl, rfl⟩) hlatest
      w.node.controllerGoal.toList
    constructor
    · rintro ⟨-, hnew⟩ -
      exact hnew _ (List.mem_append_right _ (List.mem_singleton_self _))
    · intro hturn
      refine ⟨fun g hg => ?_, fun p hp => ?_⟩
      · rcases at_concat.mp hg with hg | ⟨-, hg⟩
        · exact absurd hg (not_live_cancelled honly g)
        · cases hg.1
      · rcases List.mem_append.mp hp with hp | hp
        · exact hold p hp
        · rw [List.mem_singleton.mp hp]
          exact hturn hsends
  | @refused h response hg hr =>
    refine iff_of_true ⟨fun g hlive => ?_, ?_⟩ fun haccepted => absurd haccepted hr
    · exact honly g ((at_live_modify fun _ => not_live_setPhase (by simp)).mp hlive).2
    · exact latest_modify (f := Preview.setPhase .refused) (fun _ => ⟨rfl, rfl⟩) hlatest h
  | @accepted h hg =>
    have hlive : At Preview.Live (w.previews.modify h (Preview.setPhase .accepted)) h :=
      at_modify_self.mpr ((hw.fresh h hg).imp fun p hp => ⟨rfl, hp⟩)
    constructor
    · rintro ⟨honly', -⟩ -
      cases hgoal : w.node.controllerGoal with
      | none => rfl
      | some g =>
        have hg' := hw.live g hgoal
        have hne := ne_of_requested_of_live hg hg'
        exact absurd (Option.some.inj (honly' g ((at_modify_of_ne hne).mpr hg'))) hne
    · intro hturn
      refine ⟨fun g hg' => ?_,
        latest_modify (f := Preview.setPhase .accepted) (fun _ => ⟨rfl, rfl⟩) hlatest h⟩
      rcases eq_or_ne h g with rfl | hne
      · rfl
      · have hgoal := honly g ((at_modify_of_ne hne).mp hg')
        rw [hturn rfl] at hgoal
        cases hgoal
  | @finished h hg =>
    constructor
    · rintro ⟨honly', -⟩ g hgoal
      by_contra hne
      have hlive := (at_modify_of_ne (f := Preview.setPhase .finished) (Ne.symm hne)).mpr
        (hw.live g hgoal)
      cases honly' g hlive
    · intro hturn
      refine ⟨fun g hlive => ?_,
        latest_modify (f := Preview.setPhase .finished) (fun _ => ⟨rfl, rfl⟩) hlatest h⟩
      obtain ⟨hne, hlive⟩ := (at_live_modify fun _ => not_live_setPhase (by simp)).mp hlive
      exact absurd (hturn g (honly g hlive)) (Ne.symm hne)
  | acknowledged h =>
    refine iff_of_true ⟨fun g hlive => ?_, ?_⟩ trivial
    · exact honly g ((at_modify_of_iff fun _ => live_acknowledge).mp hlive)
    · exact latest_modify (f := Preview.acknowledge) (fun _ => ⟨rfl, rfl⟩) hlatest h

/-- In every run, the node tracks its preview at all times if and only if all callbacks come in
turn. -/
theorem tracks_iff_inTurn (hrun : Run step {} es w) :
    (∀ pre post s, es = pre ++ post → Run step {} pre s → s.Tracks) ↔
      Always step {} InTurn es := by
  refine forall_prefix_iff_always
    (I := fun s => Coherent s.node.controllerGoal s.previews) ?_
    (fun _ _ _ hs he => coherent_step hs he) ?_ (fun _ _ _ hs h he => tracks_step_iff hs h he) hrun
  · exact ⟨by simp, by simp⟩
  · exact ⟨by simp, by simp, by simp⟩

/-- A goal pose in the map frame, and a path with this pose alone. -/
def poseAt (x : ℚ) : PoseStamped ℚ := ⟨"map", ⟨0, 0⟩, ⟨x, 0, 0⟩, ⟨0, 0, 0, 1⟩⟩

def pathTo (x : ℚ) : Path ℚ := ⟨"", [poseAt x]⟩

/-- Two goals in turn: the second preview replaces the first one. -/
theorem tracks_iff_inTurn_replaced : ∃ w, Run step {}
      [.map, .goalPose (poseAt 1), .planResponse 0 .accepted,
        .planResult 0 (.wrapped .succeeded (pathTo 1)) true, .previewResponse 0 .accepted,
        .goalPose (poseAt 2), .planResponse 1 .accepted,
        .planResult 1 (.wrapped .succeeded (pathTo 2)) true, .previewResult 0,
        .previewResponse 1 .accepted] w ∧
    ((∀ pre post s, [.map, .goalPose (poseAt 1), .planResponse 0 .accepted,
          .planResult 0 (.wrapped .succeeded (pathTo 1)) true, .previewResponse 0 .accepted,
          .goalPose (poseAt 2), .planResponse 1 .accepted,
          .planResult 1 (.wrapped .succeeded (pathTo 2)) true, .previewResult 0,
          .previewResponse 1 .accepted] = pre ++ post → Run step {} pre s → s.Tracks) ↔
      Always step {} InTurn
        [.map, .goalPose (poseAt 1), .planResponse 0 .accepted,
          .planResult 0 (.wrapped .succeeded (pathTo 1)) true, .previewResponse 0 .accepted,
          .goalPose (poseAt 2), .planResponse 1 .accepted,
          .planResult 1 (.wrapped .succeeded (pathTo 2)) true, .previewResult 0,
          .previewResponse 1 .accepted]) := by
  obtain ⟨w, hw, -⟩ := exists_run step {}
    [.map, .goalPose (poseAt 1), .planResponse 0 .accepted,
      .planResult 0 (.wrapped .succeeded (pathTo 1)) true, .previewResponse 0 .accepted,
      .goalPose (poseAt 2), .planResponse 1 .accepted,
      .planResult 1 (.wrapped .succeeded (pathTo 2)) true, .previewResult 0,
      .previewResponse 1 .accepted] (fun w => w.node.controllerGoal = some 1) (by decide +kernel)
  exact ⟨w, hw, tracks_iff_inTurn hw⟩

/-- The result of the first preview comes after the second one was accepted: the second preview
runs, and its handle is gone. -/
theorem late_result_untracks : ∃ w, Run step {}
      [.map, .goalPose (poseAt 1), .planResponse 0 .accepted,
        .planResult 0 (.wrapped .succeeded (pathTo 1)) true, .previewResponse 0 .accepted,
        .goalPose (poseAt 2), .planResponse 1 .accepted,
        .planResult 1 (.wrapped .succeeded (pathTo 2)) true, .previewResponse 1 .accepted,
        .previewResult 0] w ∧ ¬w.Tracks := by
  obtain ⟨w, hw, hgoal, hlive⟩ := exists_run step {}
    [.map, .goalPose (poseAt 1), .planResponse 0 .accepted,
      .planResult 0 (.wrapped .succeeded (pathTo 1)) true, .previewResponse 0 .accepted,
      .goalPose (poseAt 2), .planResponse 1 .accepted,
      .planResult 1 (.wrapped .succeeded (pathTo 2)) true, .previewResponse 1 .accepted,
      .previewResult 0]
    (fun w => w.node.controllerGoal = none ∧ At Preview.Live w.previews 1) (by decide +kernel)
  exact ⟨w, hw, fun h => h.handle hgoal 1 hlive⟩

end World
end GoalPlan
