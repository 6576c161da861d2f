import HumanoidNavigation.PclLocalization.Frame

/-!
# The steps of the localizer

`Effect` says what each event can do to the node and to the scan in flight. `Sound` is the invariant
of all runs: cached odometry poses were received, and the scan in flight was seeded in the
generation of the current initial pose or in an earlier one.
-/

namespace PclLocalization

open CppFloat Ros Transition

variable {F M : Type} [CppFloat F] {lib : Lib F M} {cfg : Config F}

/-! ### The odometry history -/

lemma nearestLoop_mem {stampSec delta : F} {best : Option (TimedPoseMatrix F M × F)}
    {history : List (TimedPoseMatrix F M)} {nearest : TimedPoseMatrix F M}
    (h : nearestLoop lib stampSec best history = some (nearest, delta)) :
    nearest ∈ history ∨ ∃ delta', best = some (nearest, delta') := by
  induction history generalizing best with
  | nil => exact Or.inr ⟨delta, h⟩
  | cons it rest ih =>
    -- the candidate is either the head or the one from before
    have hcandidate : ∀ {best' : Option (TimedPoseMatrix F M × F)},
        (∀ x d, best' = some (x, d) → x = it ∨ ∃ d', best = some (x, d')) →
        (best' = some (nearest, delta) ∨
          nearestLoop lib stampSec best' rest = some (nearest, delta))
        → nearest ∈ it :: rest ∨ ∃ d', best = some (nearest, d') := by
      intro best' hbest' hor
      rcases hor with heq | hrest
      · rcases hbest' _ _ heq with rfl | hbest
        · exact Or.inl (by simp)
        · exact Or.inr hbest
      · rcases ih hrest with hmem | ⟨d, hd⟩
        · exact Or.inl (List.mem_cons_of_mem _ hmem)
        · rcases hbest' _ _ hd with rfl | hbest
          · exact Or.inl (by simp)
          · exact Or.inr hbest
    simp only [nearestLoop] at h
    refine hcandidate ?_ ((ite_eq_or_eq _ _ _).imp (·.symm.trans h) (·.symm.trans h))
    intro x d hx
    split at hx
    · split_ifs at hx
      obtain ⟨rfl, -⟩ := Prod.mk.inj (Option.some.inj hx)
      exact Or.inl rfl
    · split_ifs at hx
      · obtain ⟨rfl, -⟩ := Prod.mk.inj (Option.some.inj hx)
        exact Or.inl rfl
      · obtain ⟨rfl, -⟩ := Prod.mk.inj (Option.some.inj hx)
        exact Or.inr ⟨_, rfl⟩

lemma exists_mem_of_nearestTimedPose {history : List (TimedPoseMatrix F M)}
    {stampSec maxTimeDeltaSec : F} {pose : M}
    (h : nearestTimedPose lib history stampSec maxTimeDeltaSec = some pose) :
    ∃ timed ∈ history, timed.poseMatrix = pose := by
  simp only [nearestTimedPose] at h
  split_ifs at h
  split at h
  · cases h
  · next nearest delta hnearest =>
    split_ifs at h
    refine ⟨nearest, ?_, Option.some.inj h⟩
    rcases nearestLoop_mem hnearest with hmem | ⟨_, hnone⟩
    · exact List.mem_reverse.mp hmem
    · cases hnone

namespace Node

variable {s : Node F M}

variable (lib cfg) in
/-- The history grows by the new pose only. -/
lemma cacheAbsoluteOdomPose_eq (s : Node F M) (stampSec : F) (odomToBase : M) :
    ∃ history, s.cacheAbsoluteOdomPose lib cfg stampSec odomToBase =
        { s with absoluteOdomHistory := history } ∧
      ∀ timed ∈ history, timed ∈ s.absoluteOdomHistory ∨ timed.poseMatrix = odomToBase := by
  simp only [cacheAbsoluteOdomPose]
  split_ifs
  · exact ⟨_, rfl, fun timed h => Or.inl h⟩
  · refine ⟨_, rfl, fun timed h => ?_⟩
    rcases List.mem_append.mp (List.mem_of_mem_drop h) with h | h
    · left
      split at h
      · cases h
      · split_ifs at h
        · cases h
        · exact h
    · right
      rw [List.mem_singleton.mp h]

/-- The correction that `resetMapToOdomCorrection` writes. -/
def resetCorrection (lib : Lib F M) (cfg : Config F) (s : Node F M) (mapToBase : M)
    (stampSec : F) : Option M :=
  (s.lookupAbsoluteOdomPose lib cfg stampSec).bind fun odomToBase =>
    if lib.allFinite (mapToOdomFromPoses lib mapToBase odomToBase) then
      some (mapToOdomFromPoses lib mapToBase odomToBase)
    else none

lemma resetCorrection_of_history {t : Node F M}
    (h : s.absoluteOdomHistory = t.absoluteOdomHistory) :
    s.resetCorrection lib cfg = t.resetCorrection lib cfg := by
  funext mapToBase stampSec
  simp only [resetCorrection, lookupAbsoluteOdomPose, h]

lemma resetMapToOdomCorrection_eq (s : Node F M) (mapToBase : M) (stampSec : F) :
    s.resetMapToOdomCorrection lib cfg mapToBase stampSec =
      (s.resetCorrection lib cfg mapToBase stampSec).map fun mapToOdom =>
        { s with mapToOdomCorrection := some mapToOdom } := by
  simp only [resetMapToOdomCorrection, resetCorrection]
  cases s.lookupAbsoluteOdomPose lib cfg stampSec with
  | none => rfl
  | some odomToBase => cases h : lib.allFinite (mapToOdomFromPoses lib mapToBase odomToBase) <;>
      simp [h]

/-- The correction is formed from the pose and the odometry pose that is cached for its stamp. -/
lemma exists_lookup_of_resetCorrection {mapToBase mapToOdom : M} {stampSec : F}
    (h : s.resetCorrection lib cfg mapToBase stampSec = some mapToOdom) :
    ∃ odomToBase, s.lookupAbsoluteOdomPose lib cfg stampSec = some odomToBase ∧
      mapToOdom = mapToOdomFromPoses lib mapToBase odomToBase := by
  simp only [resetCorrection, Option.bind_eq_some_iff] at h
  obtain ⟨odomToBase, hlookup, h⟩ := h
  split_ifs at h
  exact ⟨odomToBase, hlookup, (Option.some.inj h).symm⟩

lemma exists_lookup_of_predictMapPoseFromAbsoluteOdom {stampSec : F} {mapToBase : M}
    (h : s.predictMapPoseFromAbsoluteOdom lib cfg stampSec = some mapToBase) :
    ∃ mapToOdom odomToBase, s.mapToOdomCorrection = some mapToOdom ∧
      s.lookupAbsoluteOdomPose lib cfg stampSec = some odomToBase ∧
      mapToBase = predictMapPose lib mapToOdom odomToBase := by
  simp only [predictMapPoseFromAbsoluteOdom] at h
  split at h
  · next odomToBase mapToOdom hlookup hcorrection =>
    split_ifs at h
    exact ⟨mapToOdom, odomToBase, hcorrection, hlookup, (Option.some.inj h).symm⟩
  · cases h

omit [CppFloat F] in
@[simp] lemma currentPoseMatrix_of_some {msg : PoseWithCovarianceStamped F}
    (h : s.correntPoseWithCovStamped = some msg) :
    s.currentPoseMatrix lib = lib.fromMsg msg.pose := by
  simp only [currentPoseMatrix, h]

/-- What an initial pose leaves of the node: everything but the correction is replaced. -/
lemma anchor_eq (s : Node F M) (msg : PoseWithCovarianceStamped F) :
    s.anchor lib cfg msg = { s with
      initialposeRecieved := true
      lastInitialPoseStampSec := stampToSec msg.stamp
      initialPoseGeneration := s.initialPoseGeneration + 1
      correntPoseWithCovStamped := some msg
      mapToOdomCorrection :=
        (s.resetCorrection lib cfg (lib.fromMsg msg.pose) (stampToSec msg.stamp)).or
          s.mapToOdomCorrection
      consecutiveCropFailures := 0
      cropFailureGuardActive := false
      prediction :=
        PredictionStateSnapshot.reset lib (lib.fromMsg msg.pose) (stampToSec msg.stamp) } := by
  have hreset : ∀ t : Node F M, t.absoluteOdomHistory = s.absoluteOdomHistory →
      t.resetCorrection lib cfg = s.resetCorrection lib cfg := fun t => resetCorrection_of_history
  simp only [anchor, resetMapToOdomCorrection_eq, currentPoseMatrix, hreset]
  cases s.resetCorrection lib cfg (lib.fromMsg msg.pose) (stampToSec msg.stamp) <;> rfl

/-- An odometry message is dropped, or its pose is cached. Then the current pose is predicted from
the correction, or becomes the pose for which a new correction is formed. -/
lemma odomReceived_cases (s : Node F M) (stamp : Stamp) (pose : Pose F) :
    s.odomReceived lib cfg stamp pose = s ∨
    ∃ odomToBase cached, poseMatrixFromPose lib pose = some odomToBase ∧
      cached = s.cacheAbsoluteOdomPose lib cfg (stampToSec stamp) odomToBase ∧
      (s.odomReceived lib cfg stamp pose = cached ∨
        (∃ mapToBase,
          cached.predictMapPoseFromAbsoluteOdom lib cfg (stampToSec stamp) = some mapToBase ∧
          s.odomReceived lib cfg stamp pose =
            cached.setCurrentPoseFromMatrix lib cfg mapToBase stamp) ∨
        ∃ mapToOdom,
          cached.predictMapPoseFromAbsoluteOdom lib cfg (stampToSec stamp) = none ∧
          cached.resetCorrection lib cfg (cached.currentPoseMatrix lib)
            (stampToSec stamp) = some mapToOdom ∧
          s.odomReceived lib cfg stamp pose =
            { cached with mapToOdomCorrection := some mapToOdom }.setCurrentPoseFromMatrix lib cfg
              (cached.currentPoseMatrix lib) stamp) := by
  simp only [odomReceived]
  cases hpose : poseMatrixFromPose lib pose with
  | none => exact Or.inl rfl
  | some odomToBase =>
    refine Or.inr ⟨odomToBase, _, rfl, rfl, ?_⟩
    dsimp only
    generalize s.cacheAbsoluteOdomPose lib cfg (stampToSec stamp) odomToBase = cached
    split_ifs
    · exact Or.inl rfl
    · cases hpredict : cached.predictMapPoseFromAbsoluteOdom lib cfg (stampToSec stamp) with
      | some mapToBase => exact Or.inr (Or.inl ⟨mapToBase, rfl, rfl⟩)
      | none =>
        rw [resetMapToOdomCorrection_eq]
        cases cached.resetCorrection lib cfg (cached.currentPoseMatrix lib) (stampToSec stamp) with
        | none => exact Or.inl rfl
        | some mapToOdom => exact Or.inr (Or.inr ⟨mapToOdom, rfl, rfl, rfl⟩)

lemma sent_odomReceived (s : Node F M) (stamp : Stamp) (pose : Pose F) :
    (s.odomReceived lib cfg stamp pose).sent = s.sent ∧
      (s.odomReceived lib cfg stamp pose).lastMapToOdomTransform = s.lastMapToOdomTransform := by
  rcases s.odomReceived_cases stamp pose with heq | ⟨odomToBase, cached, -, hcached, hcases⟩
  · rw [heq]
    exact ⟨rfl, rfl⟩
  · obtain ⟨history, heq, -⟩ := s.cacheAbsoluteOdomPose_eq lib cfg (stampToSec stamp) odomToBase
    rw [heq] at hcached
    rcases hcases with heq | ⟨mapToBase, -, heq⟩ | ⟨mapToOdom, -, -, heq⟩
    all_goals
      rw [heq, hcached]
      exact ⟨rfl, rfl⟩

end Node

/-! ### Steps -/

/-- The odometry poses that the events bring. -/
def Received (lib : Lib F M) (es : List (Event F M)) (odomToBase : M) : Prop :=
  ∃ stamp pose, .odom stamp pose ∈ es ∧ poseMatrixFromPose lib pose = some odomToBase

lemma Received.append {es : List (Event F M)} {odomToBase : M} (h : Received lib es odomToBase)
    (fs : List (Event F M)) : Received lib (es ++ fs) odomToBase := by
  obtain ⟨stamp, pose, hmem, hpose⟩ := h
  exact ⟨stamp, pose, List.mem_append_left fs hmem, hpose⟩

namespace World

variable {w t : World F M} {e : Event F M}

/-- The event is an initial pose that is accepted. -/
def AcceptsPose (lib : Lib F M) (cfg : Config F) : Event F M → Prop
  | .initialPose msg _ _ => decideInitialPoseAdmission lib cfg.globalFrameId msg = true
  | .map _ | .odom _ _ | .cloud _ _ _ _ _ | .aligned _ _ | .timer _ _ => False

/-- The event ends the alignment of a scan, the scan was seeded after the last initial pose, and
the registration is accepted. -/
def AcceptsRegistration (cfg : Config F) (w : World F M) : Event F M → Prop
  | .aligned alignment _ => ∃ scan, w.scan = some scan ∧
      w.node.initialPoseGeneration = scan.seedGeneration ∧
      (alignment.acceptedPose cfg).isSome = true
  | .map _ | .odom _ _ | .initialPose _ _ _ | .cloud _ _ _ _ _ | .timer _ _ => False

/-- The message with the stamp that the node gives it. -/
def normalized (cfg : Config F) (msg : PoseWithCovarianceStamped F) (tf : TfBuffer F) :
    PoseWithCovarianceStamped F :=
  { msg with stamp := Node.normalizeInitialPoseStamp cfg msg.stamp tf }

/-- What an event can do. -/
inductive Effect (lib : Lib F M) (cfg : Config F) (w : World F M) :
    Event F M → World F M → Prop where
  | quiet {e : Event F M} {t : World F M} (hpose : ¬AcceptsPose lib cfg e)
      (hframe : Frame (Output.Republished w.node.lastMapToOdomTransform) w.node t.node)
      (hscan : t.scan = w.scan) : Effect lib cfg w e t
  | anchored {msg : PoseWithCovarianceStamped F} {tf tfLater : TfBuffer F} {t : World F M}
      (haccepted : decideInitialPoseAdmission lib cfg.globalFrameId msg = true)
      (hframe : Frame (Output.Composed cfg (normalized cfg msg tf).stamp
        (normalized cfg msg tf).stamp tfLater)
        (w.node.anchor lib cfg (normalized cfg msg tf)) t.node)
      (hscan : t.scan = w.scan) :
      Effect lib cfg w (.initialPose msg tf tfLater) t
  | odom {stamp : Stamp} {pose : Pose F} (hscan : w.scan = none) :
      Effect lib cfg w (.odom stamp pose) ⟨w.node.odomReceived lib cfg stamp pose, none⟩
  | passed {stamp : Stamp} {elapsed : F} {status : ScanPreparationStatus} {ready : Bool}
      {twist : Option M} {s : Node F M} (hscan : w.scan = none) (hpredicts : w.node.Predicts s) :
      Effect lib cfg w (.cloud stamp elapsed status ready twist) ⟨s, none⟩
  | seeded {stamp : Stamp} {elapsed : F} {status : ScanPreparationStatus} {ready : Bool}
      {twist : Option M} {s : Node F M} (hscan : w.scan = none)
      (hreceived : w.node.initialposeRecieved = true)
      (hframe : Frame (· = .align (w.node.selectRegistrationSeed lib cfg (stampToSec stamp)))
        w.node s) :
      Effect lib cfg w (.cloud stamp elapsed status ready twist)
        ⟨s, some ⟨stamp, w.node.initialPoseGeneration⟩⟩
  | discarded {alignment : Alignment F M} {tf : TfBuffer F} {scan : Scan} {s : Node F M}
      (hscan : w.scan = some scan) (hstale : w.node.initialPoseGeneration ≠ scan.seedGeneration)
      (hframe : Frame (· = .align w.node.prediction.lastAcceptedPoseMatrix) w.node s) :
      Effect lib cfg w (.aligned alignment tf) ⟨s, none⟩
  | refused {alignment : Alignment F M} {tf : TfBuffer F} {scan : Scan} {s u : Node F M}
      (hscan : w.scan = some scan) (hfresh : w.node.initialPoseGeneration = scan.seedGeneration)
      (hrefused : alignment.acceptedPose cfg = none)
      (hframe : Frame (· = .align w.node.prediction.lastAcceptedPoseMatrix) w.node s)
      (hpredicts : s.Predicts u) : Effect lib cfg w (.aligned alignment tf) ⟨u, none⟩
  | accepted {alignment : Alignment F M} {tf : TfBuffer F} {scan : Scan} {pose : M}
      (hscan : w.scan = some scan) (hfresh : w.node.initialPoseGeneration = scan.seedGeneration)
      (haccepted : alignment.acceptedPose cfg = some pose) :
      Effect lib cfg w (.aligned alignment tf)
        ⟨w.node.cloudAligned lib cfg scan alignment tf, none⟩

lemma frame_initialPoseReceived {s : Node F M} {msg : PoseWithCovarianceStamped F}
    {tf tfLater : TfBuffer F}
    (h : decideInitialPoseAdmission lib cfg.globalFrameId msg = true) :
    Frame (Output.Composed cfg (normalized cfg msg tf).stamp
        (normalized cfg msg tf).stamp tfLater)
      (s.anchor lib cfg (normalized cfg msg tf))
      (s.initialPoseReceived lib cfg msg tf tfLater) := by
  simp only [Node.initialPoseReceived, h, Bool.not_true, Bool.false_eq_true, if_false]
  exact (Frame.send _ ⟨Output.published_pose _, nofun⟩).trans
    (Node.frame_publishPoseTransform _ _ _ _)

lemma effect_of_step (h : step lib cfg w e = some t) : Effect lib cfg w e t := by
  cases e with
  | map frameId =>
    simp only [step] at h
    split_ifs at h
    obtain rfl := Option.some.inj h
    refine Effect.quiet id ?_ rfl
    simp only [Node.mapReceived]
    split_ifs
    · rfl
    · exact ⟨rfl, rfl, rfl, rfl, rfl, rfl, fun _ => Or.inl, [], by simp, by simp⟩
  | odom stamp pose =>
    simp only [step] at h
    split_ifs at h with hscan
    obtain rfl := Option.some.inj h
    have hnone : w.scan = none := by simpa using hscan
    simpa only [hnone] using Effect.odom hnone
  | initialPose msg tf tfLater =>
    obtain rfl := Option.some.inj h
    cases haccepted : decideInitialPoseAdmission lib cfg.globalFrameId msg with
    | true => exact Effect.anchored haccepted (frame_initialPoseReceived haccepted) rfl
    | false =>
      refine Effect.quiet (by simp [AcceptsPose, haccepted]) ?_ rfl
      simp only [Node.initialPoseReceived, haccepted, Bool.not_false, if_true]
      rfl
  | cloud stamp elapsed status ready twist =>
    simp only [step] at h
    split_ifs at h with hscan
    obtain rfl := Option.some.inj h
    have hnone : w.scan = none := by simpa using hscan
    rcases w.node.cloudReceived_cases lib cfg stamp elapsed status ready twist with
      ⟨hpassed, hpredicts⟩ | ⟨hseeded, hreceived, hframe⟩
    · rw [hpassed]
      exact Effect.passed hnone hpredicts
    · rw [hseeded]
      exact Effect.seeded hnone hreceived hframe
  | aligned alignment tf =>
    simp only [step] at h
    split at h
    · cases h
    · next scan hscan =>
      obtain rfl := Option.some.inj h
      have hretry := Node.frame_retryFromLastPose cfg w.node alignment.retry
      by_cases hfresh : w.node.initialPoseGeneration = scan.seedGeneration
      · cases haccepted : alignment.acceptedPose cfg with
        | none =>
          exact Effect.refused hscan hfresh haccepted hretry
            (Node.cloudAligned_of_refused haccepted)
        | some pose => exact Effect.accepted hscan hfresh haccepted
      · rw [Node.cloudAligned_of_stale hfresh]
        exact Effect.discarded hscan hfresh hretry
  | timer now tf =>
    simp only [step] at h
    split_ifs at h
    obtain rfl := Option.some.inj h
    exact Effect.quiet id (Node.frame_timerPublishPose _ _ _) rfl

/-! ### The invariant of all runs -/

structure Sound (lib : Lib F M) (es : List (Event F M)) (w : World F M) : Prop where
  history : ∀ timed ∈ w.node.absoluteOdomHistory, Received lib es timed.poseMatrix
  current : w.node.initialposeRecieved = true → w.node.correntPoseWithCovStamped.isSome = true
  scan : ∀ scan ∈ w.scan, w.node.initialposeRecieved = true ∧
    scan.seedGeneration ≤ w.node.initialPoseGeneration

lemma sound_init : Sound lib [] (World.init lib) where
  history := by simp [World.init, Node.init]
  current := by simp [World.init, Node.init]
  scan := by simp [World.init]

variable {es : List (Event F M)} {P : Output F M → Prop}

/-- What only counts and sends keeps the invariant. -/
lemma Sound.of_frame (h : Sound lib es w) (hframe : Frame P w.node t.node)
    (hscan : t.scan = w.scan ∨ t.scan = none) : Sound lib (es ++ [e]) t where
  history timed htimed := (h.history timed (hframe.history ▸ htimed)).append [e]
  current hreceived := by
    rw [hframe.current]
    exact h.current (hframe.initialposeRecieved ▸ hreceived)
  scan scan hmem := by
    rw [hframe.initialposeRecieved, hframe.generation]
    rcases hscan with hscan | hscan
    · exact h.scan scan (hscan ▸ hmem)
    · rw [hscan] at hmem
      cases hmem

lemma Sound.of_predicts (h : Sound lib es w) (hpredicts : w.node.Predicts t.node)
    (hscan : t.scan = none) : Sound lib (es ++ [e]) t := by
  obtain ⟨prediction, -, hframe⟩ := hpredicts
  have hmoved : Sound lib es { w with node := { w.node with prediction := prediction } } :=
    ⟨h.history, h.current, h.scan⟩
  exact hmoved.of_frame hframe (Or.inr hscan)

lemma Sound.of_seeded {s : Node F M} {stamp : Stamp} (h : Sound lib es w)
    (hreceived : w.node.initialposeRecieved = true) (hframe : Frame P w.node s) :
    Sound lib (es ++ [e]) ⟨s, some ⟨stamp, w.node.initialPoseGeneration⟩⟩ := by
  have hnode : Sound lib (es ++ [e]) ⟨s, none⟩ := h.of_frame hframe (Or.inr rfl)
  refine ⟨hnode.history, hnode.current, fun scan hscan => ?_⟩
  cases hscan
  exact ⟨hframe.initialposeRecieved.trans hreceived, hframe.generation.ge⟩

lemma Sound.of_refused {s u : Node F M} (h : Sound lib es w) (hframe : Frame P w.node s)
    (hpredicts : s.Predicts u) : Sound lib (es ++ [e]) ⟨u, none⟩ := by
  have hnode : Sound lib (es ++ [e]) ⟨s, none⟩ := h.of_frame hframe (Or.inr rfl)
  obtain ⟨prediction, -, hmoved⟩ := hpredicts
  exact ⟨fun timed hmem => hnode.history timed (hmoved.history ▸ hmem),
    fun hr => hmoved.current ▸ hnode.current (hmoved.initialposeRecieved ▸ hr), by simp⟩

lemma Sound.of_odom {stamp : Stamp} {pose : Pose F} (h : Sound lib es w) :
    Sound lib (es ++ [.odom stamp pose]) ⟨w.node.odomReceived lib cfg stamp pose, none⟩ := by
  rcases w.node.odomReceived_cases stamp pose with
    heq | ⟨odomToBase, cached, hpose, hcached, hcases⟩
  · rw [heq]
    exact h.of_frame (P := fun _ => True) (Frame.refl _) (Or.inr rfl)
  · obtain ⟨history, heq, hhistory⟩ :=
      w.node.cacheAbsoluteOdomPose_eq lib cfg (stampToSec stamp) odomToBase
    rw [heq] at hcached
    have hreceived : ∀ timed ∈ history,
        Received lib (es ++ [.odom stamp pose]) timed.poseMatrix := by
      intro timed hmem
      rcases hhistory timed hmem with hold | rfl
      · exact (h.history timed hold).append _
      · exact ⟨stamp, pose, by simp, hpose⟩
    rcases hcases with heq | ⟨mapToBase, -, heq⟩ | ⟨mapToOdom, -, -, heq⟩
    · rw [heq, hcached]
      exact ⟨hreceived, h.current, by simp⟩
    · rw [heq, hcached]
      exact ⟨hreceived, fun hr => by simpa [Node.setCurrentPoseFromMatrix] using h.current hr,
        by simp⟩
    · rw [heq, hcached]
      exact ⟨hreceived, fun hr => by simpa [Node.setCurrentPoseFromMatrix] using h.current hr,
        by simp⟩

lemma Sound.of_anchored {msg : PoseWithCovarianceStamped F} (h : Sound lib es w)
    (hframe : Frame P (w.node.anchor lib cfg msg) t.node) (hscan : t.scan = w.scan) :
    Sound lib (es ++ [e]) t := by
  rw [Node.anchor_eq] at hframe
  exact {
    history := fun timed hmem => (h.history timed (hframe.history ▸ hmem)).append [e]
    current := fun _ => by rw [hframe.current]; rfl
    scan := fun scan hmem => by
      rw [hframe.initialposeRecieved, hframe.generation]
      exact ⟨rfl, Nat.le_succ_of_le (h.scan scan (hscan ▸ hmem)).2⟩ }

variable (cfg) in
lemma Sound.exists_current_applied {scan : Scan} (h : Sound lib es w) (hscan : w.scan = some scan)
    (alignment : Alignment F M) (pose : M) :
    ∃ msg, (w.node.applied lib cfg scan alignment pose).correntPoseWithCovStamped = some msg := by
  obtain ⟨current, correction, prediction, heq, hcurrent⟩ :=
    w.node.applied_eq lib cfg scan alignment pose
  rw [heq]
  exact Option.isSome_iff_exists.mp (hcurrent.trans (h.current (h.scan scan hscan).1))

lemma Sound.of_accepted {alignment : Alignment F M} {tf : TfBuffer F} {scan : Scan} {pose : M}
    (h : Sound lib es w) (hscan : w.scan = some scan)
    (hfresh : w.node.initialPoseGeneration = scan.seedGeneration)
    (haccepted : alignment.acceptedPose cfg = some pose) :
    Sound lib (es ++ [.aligned alignment tf])
      ⟨w.node.cloudAligned lib cfg scan alignment tf, none⟩ := by
  have hretry := Node.frame_retryFromLastPose cfg w.node alignment.retry
  obtain ⟨msg, hmsg⟩ := h.exists_current_applied cfg hscan alignment pose
  obtain ⟨current, correction, prediction, heq, -⟩ :=
    w.node.applied_eq lib cfg scan alignment pose
  have hhistory : (w.node.applied lib cfg scan alignment pose).absoluteOdomHistory =
      w.node.absoluteOdomHistory := by
    rw [heq]
    exact hretry.history
  have happlied : Sound lib es ⟨w.node.applied lib cfg scan alignment pose, none⟩ :=
    ⟨hhistory ▸ h.history, fun _ => by rw [hmsg]; rfl, by simp⟩
  rw [Node.cloudAligned_of_accepted hfresh haccepted]
  split_ifs
  · exact happlied.of_frame (P := fun _ => True) (Frame.refl _) (Or.inr rfl)
  · exact happlied.of_frame (Node.frame_publishCurrentPose hmsg _ _) (Or.inr rfl)

/-- Every step keeps the invariant. -/
lemma Sound.step (h : Sound lib es w) (he : step lib cfg w e = some t) :
    Sound lib (es ++ [e]) t := by
  cases effect_of_step he with
  | quiet _ hframe hscan => exact h.of_frame hframe (Or.inl hscan)
  | anchored _ hframe hscan => exact h.of_anchored hframe hscan
  | odom => exact h.of_odom
  | passed _ hpredicts => exact h.of_predicts hpredicts rfl
  | seeded _ hreceived hframe => exact h.of_seeded hreceived hframe
  | discarded _ _ hframe => exact h.of_frame hframe (Or.inr rfl)
  | refused _ _ _ hframe hpredicts => exact h.of_refused hframe hpredicts
  | accepted hscan hfresh haccepted => exact h.of_accepted hscan hfresh haccepted

lemma sound_of_run (hrun : Run (World.step lib cfg) (World.init lib) es w) : Sound lib es w :=
  hrun.invariant (P := fun _ _ => True) (I := Sound lib) sound_init
    (fun _ _ _ _ _ _ h he => h.step he) (fun _ _ _ _ _ _ => trivial)

end World

/-! ### Motion along an axis -/

section

attribute [local instance] CppFloat.exact

/-- The operations for poses without rotation on the first axis, in exact arithmetic. -/
def Lib.alongAxis : Lib ℚ ℚ where
  isFinite _ := true
  toFloat x := x
  norm q := q.x * q.x + q.y * q.y + q.z * q.z + q.w * q.w
  normalized q := q
  slerp _ q _ := q
  identity := 0
  mul a b := a + b
  inverse a := -a
  allFinite _ := true
  rotation _ := ⟨0, 0, 0, 1⟩
  rotationDouble _ := ⟨0, 0, 0, 1⟩
  translation a := ⟨a, 0, 0⟩
  rigid _ v := v.x
  fromMsg pose := pose.position.x
  mulInverse a b :=
    ⟨⟨a.translation.x - b.translation.x, 0, 0⟩, ⟨0, 0, 0, 1⟩⟩

def Pose.alongAxis (x : ℚ) : Pose ℚ := ⟨⟨x, 0, 0⟩, ⟨0, 0, 0, 1⟩⟩

def Transform.alongAxis (x : ℚ) : Transform ℚ := ⟨⟨x, 0, 0⟩, ⟨0, 0, 0, 1⟩⟩

/-- The message with an initial pose. -/
def PoseWithCovarianceStamped.alongAxis (sec : ℤ) (x : ℚ) : PoseWithCovarianceStamped ℚ :=
  ⟨⟨sec, 0⟩, "map", Pose.alongAxis x, []⟩

/-- The default parameters, with or without the transform to the odometry frame. -/
def Config.default (enableMapOdomTf : Bool) : Config ℚ where
  globalFrameId := "map"
  odomFrameId := "odom"
  baseFrameId := "base_link"
  enableMapOdomTf := enableMapOdomTf
  enableTimerPublishing := false
  minScanIntervalSec := 0
  absoluteOdomCorrectionGain := 1 / 10
  absoluteOdomMaxTimeDeltaSec := 1 / 20
  absoluteOdomHistorySize := 200
  useTwistPrediction := false
  predictPoseFromPreviousDelta := true
  useGtsamSmoother := false
  useImuPreintegration := true
  useTwistEkf := false
  useLocalMapCrop := false

/-- A buffer that has no transforms yet. -/
def TfBuffer.empty : TfBuffer ℚ := ⟨none, fun _ => none⟩

end

end PclLocalization
