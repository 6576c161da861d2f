import HumanoidNavigation.Localizer.System

/-!
# How far the pose may move

After the first lock a tick leaves the pose, takes a tracking candidate below the ceiling, or a
re-localization candidate near the prior. `TrackCase` states the bounds of each case, and that a
tick without an accepted candidate changes nothing but the counters. `drift_bounded` holds in
every run, whatever the ICP calls return.
-/

namespace Localizer

open PyFloat Ros Transition

variable {F : Type} [PyFloat F] {lib : ThirdParty F} {cfg : Config F} {mapData : MapData F}
  {n n' m : Node F} {scan : List (Vector3 F)} {c g : IcpResult F} {tick : Tick F}
  {w w' : World F} {e : Event F} {es : List (Event F)}

namespace Node

/-- What a tick can do to the pose of an initialized node. -/
inductive TrackCase (lib : ThirdParty F) (cfg : Config F) (n : Node F) (tick : Tick F)
    (n' : Node F) : Prop where
  /-- `_track` is not called. -/
  | idle (hnone : ∀ scan, ¬Scans lib cfg n tick scan) (h : SamePose n n')
  /-- A tracking candidate is taken. Its displacement is below the ceiling and, once the settle
  ticks are used up, within the drift budget unless it is decisively better than the prior. -/
  | tracked {scan : List (Vector3 F)} {c : IcpResult F} (hscan : Scans lib cfg n tick scan)
      (hc : tick.trackIcp = .ok c) (hgates : n.trackGates lib cfg scan c = .ok true)
      (hT : n'.tMapCam = c.T)
      (hceil : le (planarDist c.T n.tMapCam) cfg.maxDposePerTick = true)
      (hjump : n.settleTicks = 0 → le (planarDist c.T n.tMapCam) (n.driftBudget cfg) = false →
        ∃ prior, n.evalFitness lib cfg scan n.tMapCam = .ok prior ∧
          le (prior + cfg.jumpFitnessMargin) c.fitness = true)
  /-- The tracking candidate is rejected and a re-localization candidate near the prior is
  taken. -/
  | relocalized {scan : List (Vector3 F)} {c g : IcpResult F} (hscan : Scans lib cfg n tick scan)
      (hc : tick.trackIcp = .ok c) (hgates : n.trackGates lib cfg scan c = .ok false)
      (hg : tick.globalIcp = .ok g) (hrecovery : n.recoveryGates lib cfg g = .ok true)
      (hT : n'.tMapCam = g.T)
      (hdrift : le (planarDist g.T n.tMapCam) cfg.maxRecoveryDriftFromPrior = true)
  /-- No candidate is accepted. -/
  | held {scan : List (Vector3 F)} {c : IcpResult F} (hscan : Scans lib cfg n tick scan)
      (hc : tick.trackIcp = .ok c) (hgates : n.trackGates lib cfg scan c = .ok false)
      (hrecovery : cfg.relocalizeAfterNLosses ≤ (n.lostCount + 1 : ℕ) →
        ∃ g, tick.globalIcp = .ok g ∧ n.recoveryGates lib cfg g = .ok false)
      (hT : n'.tMapCam = n.tMapCam) (hfilter : n'.filter = n.filter)
      (hmap : n'.localMap = n.localMap) (hlost : n'.lostCount = n.lostCount + 1)

/-! ### The gates read the data of the pose -/

lemma SamePose.effectiveBudget_eq (h : SamePose n m) :
    m.effectiveBudget cfg = n.effectiveBudget cfg := by
  simp only [effectiveBudget, driftBudget, h.settleTicks, h.robotSpeed]

lemma SamePose.evalFitness_eq (h : SamePose n m) (T : Mat4 F) :
    m.evalFitness lib cfg scan T = n.evalFitness lib cfg scan T := by
  simp only [evalFitness, h.localMap]

lemma SamePose.trackGates_eq (h : SamePose n m) :
    m.trackGates lib cfg scan c = n.trackGates lib cfg scan c := by
  simp only [trackGates, justified, h.effectiveBudget_eq, h.evalFitness_eq, h.tMapCam]

lemma SamePose.recoveryGates_eq (h : SamePose n m) :
    m.recoveryGates lib cfg g = n.recoveryGates lib cfg g := by
  simp only [recoveryGates, h.tMapCam]

/-! ### One tick -/

/-- One call of `_track`. -/
lemma trackCase_of_track {full : List (Vector3 F)} {o : Outcome F}
    (hscan : Scans lib cfg n tick scan) (hn : SamePose n m)
    (h : m.track lib cfg full scan tick.trackIcp tick.globalIcp = .ok (n', o)) :
    TrackCase lib cfg n tick n' := by
  obtain ⟨c, hc, ⟨hgates, -, hacc⟩ | ⟨hgates, hrej⟩⟩ := track_ok h
  · rw [hn.trackGates_eq] at hgates
    obtain ⟨-, hceil, hjump⟩ := trackGates_eq_true hgates
    obtain ⟨filter, localMap, -, -, rfl⟩ := acceptTrack_ok hacc
    refine .tracked hscan hc hgates rfl hceil fun hsettle => ?_
    rwa [effectiveBudget, if_neg (by omega)] at hjump
  · rw [hn.trackGates_eq] at hgates
    rcases rejectTrack_ok hrej with ⟨g, _, -, hg, hrec, -, hlock, rfl⟩ | ⟨hrec, -, rfl⟩
    · obtain ⟨filter, localMap, -, -, rfl⟩ := lock_ok hlock
      replace hrec : m.recoveryGates lib cfg g = .ok true := hrec
      rw [hn.recoveryGates_eq] at hrec
      exact .relocalized hscan hc hgates hg hrec rfl (recoveryGates_eq_true hrec).2
    · refine .held hscan hc hgates ?_ hn.tMapCam hn.filter hn.localMap
        (congrArg (· + 1) hn.lostCount)
      intro hlost
      obtain ⟨g, hg, hgates'⟩ := hrec (hn.lostCount ▸ hlost)
      replace hgates' : m.recoveryGates lib cfg g = .ok false := hgates'
      exact ⟨g, hg, hn.recoveryGates_eq ▸ hgates'⟩

lemma track_initialized {full : List (Vector3 F)} {o : Outcome F}
    (h : n.track lib cfg full scan tick.trackIcp tick.globalIcp = .ok (n', o)) :
    n'.initialized = n.initialized := by
  obtain ⟨c, -, ⟨-, -, hacc⟩ | ⟨-, hrej⟩⟩ := track_ok h
  · obtain ⟨filter, localMap, -, -, rfl⟩ := acceptTrack_ok hacc
    rfl
  · rcases rejectTrack_ok hrej with ⟨g, _, -, -, -, -, hlock, rfl⟩ | ⟨-, -, rfl⟩
    · obtain ⟨filter, localMap, -, -, rfl⟩ := lock_ok hlock
      rfl
    · rfl

/-- A pose that came out of a tick is the old one or passed the attitude gate. -/
lemma TrackCase.tiltBounded (h : TrackCase lib cfg n tick n')
    (hn : TiltBounded lib cfg n.tMapCam) : TiltBounded lib cfg n'.tMapCam := by
  cases h with
  | idle _ h => rwa [h.tMapCam]
  | tracked _ _ hgates hT => exact hT ▸ (trackGates_eq_true hgates).1
  | relocalized _ _ _ _ hrecovery hT => exact hT ▸ (recoveryGates_eq_true hrecovery).1
  | held _ _ _ _ hT => rwa [hT]

end Node

namespace World

/-! ### Runs -/

/-- What an event can do to the pose of an initialized node. -/
def PoseCase (lib : ThirdParty F) (cfg : Config F) (w : World F) (e : Event F) (w' : World F) :
    Prop :=
  match e with
  | .cloud _ _ | .odom _ _ => w'.node.tMapCam = w.node.tMapCam ∧ w'.node.filter = w.node.filter ∧
      w'.node.localMap = w.node.localMap ∧ w'.node.lostCount = w.node.lostCount
  | .tick tick => Node.TrackCase lib cfg w.node tick w'.node

/-- A step of an initialized node. -/
lemma step_of_initialized (h : w.step lib cfg mapData e = some w')
    (hinit : w.node.initialized = true) :
    PoseCase lib cfg w e w' ∧ w'.node.initialized = true := by
  cases e with
  | cloud pts stamp =>
    cases h
    exact ⟨⟨rfl, rfl, rfl, rfl⟩, hinit⟩
  | odom pos stamp =>
    cases h
    exact ⟨⟨rfl, rfl, rfl, rfl⟩, hinit⟩
  | tick tick =>
    cases tick_cases h with
    | idle hnone hn => exact ⟨.idle hnone hn, hn.initialized.trans hinit⟩
    | frozen hfrozen hn =>
      refine ⟨.idle (fun scan hscan => ?_) hn, hn.initialized.trans hinit⟩
      cases hfrozen.symm.trans hscan.1
    | scan hscan hn ho =>
      rcases Node.firstLocalizeOrTrack_ok ho with ⟨hm, ho⟩ | ⟨hm, -⟩
      · exact ⟨Node.trackCase_of_track hscan hn ho, (Node.track_initialized ho).trans hm⟩
      · cases hm.symm.trans (hn.initialized.trans hinit)

/-- A tick of a node that is not initialized leaves it so or locks on a level candidate. -/
lemma tiltBounded_of_tick (h : w.step lib cfg mapData (.tick tick) = some w')
    (hinit : w.node.initialized = false) (hinit' : w'.node.initialized = true) :
    TiltBounded lib cfg w'.node.tMapCam := by
  cases tick_cases h with
  | idle _ hn | frozen _ hn => simp [hn.initialized, hinit] at hinit'
  | scan hscan hn ho =>
    rcases Node.firstLocalizeOrTrack_ok ho with ⟨hm, -⟩ | ⟨hm, ho⟩
    · cases hm.symm.trans (hn.initialized.trans hinit)
    · obtain ⟨floorZ, g, -, ⟨hgates, -, _, hlock, hw'⟩ | ⟨-, -, hw'⟩⟩ := Node.firstLocalize_ok ho
      · obtain ⟨filter, localMap, -, -, rfl⟩ := Node.lock_ok hlock
        rw [hw']
        exact (Node.firstGates_eq_true hgates).1
      · rw [hw'] at hinit'
        cases hinit'.symm.trans hm

/-- An initialized node has a pose with bounded roll and pitch. -/
lemma tiltBounded_of_run (hrun : Run (step lib cfg mapData) (init lib cfg mapData) es w)
    (hinit : w.node.initialized = true) : TiltBounded lib cfg w.node.tMapCam := by
  refine hrun.invariant_state (I := fun w => w.node.initialized = true →
    TiltBounded lib cfg w.node.tMapCam) (fun h => by cases h) ?_ hinit
  intro w e w' ih h hinit'
  cases hw : w.node.initialized with
  | true =>
    obtain ⟨hcase, -⟩ := step_of_initialized h hw
    cases e with
    | cloud _ _ | odom _ _ => exact hcase.1 ▸ ih hw
    | tick tick => exact hcase.tiltBounded (ih hw)
  | false =>
    cases e with
    | cloud _ _ | odom _ _ =>
      cases h
      cases hw.symm.trans hinit'
    | tick tick => exact tiltBounded_of_tick h hw hinit'

/-- In every run and for all results of the ICP calls, the pose of an initialized node has roll
and pitch within their bound, and every event moves it within the bounds of `TrackCase`. -/
theorem drift_bounded (hrun : Run (step lib cfg mapData) (init lib cfg mapData) es w)
    (hinit : w.node.initialized = true) :
    TiltBounded lib cfg w.node.tMapCam ∧
      ∀ e w', w.step lib cfg mapData e = some w' → PoseCase lib cfg w e w' :=
  ⟨tiltBounded_of_run hrun hinit, fun _ _ h => (step_of_initialized h hinit).1⟩

section

attribute [local instance] PyFloat.exact

/-- The first tick locks on the hint. -/
theorem drift_bounded_after_lock : ∃ w, Run (step .level {} .point)
      (init .level {} .point) [.cloud (.replicate 200 ⟨0, 0, 0⟩) ⟨0, 0⟩, .tick (.level 0 1)] w ∧
    TiltBounded .level {} w.node.tMapCam ∧
      ∀ e w', w.step .level {} .point e = some w' → PoseCase .level {} w e w' := by
  obtain ⟨w, hw, hinit⟩ := exists_run (step .level {} .point) (init .level {} .point)
    [.cloud (.replicate 200 ⟨0, 0, 0⟩) ⟨0, 0⟩, .tick (.level 0 1)]
    (fun w => w.node.initialized = true) (by decide +kernel)
  exact ⟨w, hw, drift_bounded hw hinit⟩

end

end World
end Localizer
