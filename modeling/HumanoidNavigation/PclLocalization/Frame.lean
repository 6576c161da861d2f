import HumanoidNavigation.PclLocalization.Node

/-!
# What the callbacks leave alone

The spec lemmas of the callbacks. The current pose, the correction and the prediction state change
in few places: publishing and the preparation of an alignment only send, count and append to the
path, and a registration that is refused only moves the predicted pose.
-/

namespace PclLocalization

open CppFloat Ros Transition

variable {F M : Type} [CppFloat F]

/-- Output other than the calls of `registration_->align`. -/
def Output.Published (o : Output F M) : Prop := ∀ initGuess, o ≠ .align initGuess

/-- Output of a publication at a stamp, of a pose with its own stamp: a transform from the map to
the odometry frame is composed with the transform that is looked up. -/
def Output.Composed (cfg : Config F) (stamp poseStamp : Stamp) (tf : TfBuffer F)
    (o : Output F M) : Prop :=
  o.Published ∧ ∀ c, o = .mapToOdom c → cfg.enableMapOdomTf = true ∧ c.poseStamp = poseStamp ∧
    ∃ odomToBase, tf.lookupTransform cfg.odomFrameId cfg.baseFrameId stamp = some odomToBase ∧
      c.odomToBaseStamp = odomToBase.stamp

/-- Output of the timer: a transform from the map to the odometry frame is the held one. -/
def Output.Republished (held : Option (MapToOdom F)) (o : Output F M) : Prop :=
  o.Published ∧ ∀ c, o = .mapToOdom c → ∃ h, held = some h ∧ c.poseStamp = h.poseStamp ∧
    c.odomToBaseStamp = h.odomToBaseStamp

omit [CppFloat F] in
lemma Output.published_pose (msg : PoseWithCovarianceStamped F) :
    (Output.pose msg : Output F M).Published := nofun

omit [CppFloat F] in
lemma Output.published_path (poses : List (PoseStamped F)) :
    (Output.path poses : Output F M).Published := nofun

omit [CppFloat F] in
lemma Output.published_mapToBase (transform : TransformStamped F) :
    (Output.mapToBase transform : Output F M).Published := nofun

omit [CppFloat F] in
lemma Output.published_mapToOdom (composed : MapToOdom F) :
    (Output.mapToOdom composed : Output F M).Published := nofun

/-- The pose that a registration is accepted with; `none` when it is refused. -/
def Alignment.acceptedPose (cfg : Config F) (alignment : Alignment F M) : Option M :=
  if !alignment.shouldContinue then none
  else
    let accepted := decideLocalizationUpdate alignment.gateResult = .acceptMeasurement
    match selectPoseBackend cfg.useGtsamSmoother cfg.useImuPreintegration alignment.hasImuStamp
        cfg.useTwistEkf with
    | .gtsamSmoother | .twistEkf => some alignment.smootherPose
    | .imuPreintegration => if accepted then some alignment.smootherPose else none
    | .rawRegistration => if accepted then some alignment.finalTransformation else none

/-- `t` is `s` but for what it counts and sends, and what it sends has the property `P`. -/
structure Frame (P : Output F M → Prop) (s t : Node F M) : Prop where
  initialposeRecieved : t.initialposeRecieved = s.initialposeRecieved
  generation : t.initialPoseGeneration = s.initialPoseGeneration
  current : t.correntPoseWithCovStamped = s.correntPoseWithCovStamped
  history : t.absoluteOdomHistory = s.absoluteOdomHistory
  correction : t.mapToOdomCorrection = s.mapToOdomCorrection
  prediction : t.prediction = s.prediction
  /-- a transform that is held was held before or is sent -/
  held : ∀ c, t.lastMapToOdomTransform = some c →
    s.lastMapToOdomTransform = some c ∨ .mapToOdom c ∈ t.sent
  sent : ∃ outs, t.sent = s.sent ++ outs ∧ ∀ o ∈ outs, P o

namespace Frame

variable {P Q : Output F M → Prop} {s t u : Node F M} {o : Output F M}

omit [CppFloat F] in
@[refl] lemma refl (s : Node F M) : Frame P s s :=
  ⟨rfl, rfl, rfl, rfl, rfl, rfl, fun _ => Or.inl, [], by simp, by simp⟩

omit [CppFloat F] in
lemma trans (hst : Frame P s t) (htu : Frame P t u) : Frame P s u := by
  obtain ⟨outs, hsent, houts⟩ := hst.sent
  obtain ⟨outs', hsent', houts'⟩ := htu.sent
  refine ⟨htu.1.trans hst.1, htu.2.trans hst.2, htu.3.trans hst.3, htu.4.trans hst.4,
    htu.5.trans hst.5, htu.6.trans hst.6, fun c hc => ?_, outs ++ outs',
    by simp [hsent, hsent'], ?_⟩
  · rcases htu.held c hc with hheld | hsent
    · refine (hst.held c hheld).imp_right fun hmem => ?_
      rw [hsent']
      exact List.mem_append_left outs' hmem
    · exact Or.inr hsent
  · intro o ho
    rcases List.mem_append.mp ho with ho | ho
    · exact houts o ho
    · exact houts' o ho

omit [CppFloat F] in
lemma mono (h : Frame P s t) (hPQ : ∀ o, P o → Q o) : Frame Q s t := by
  obtain ⟨outs, hsent, houts⟩ := h.sent
  exact ⟨h.1, h.2, h.3, h.4, h.5, h.6, h.7, outs, hsent, fun o ho => hPQ o (houts o ho)⟩

omit [CppFloat F] in
lemma mem_sent (h : Frame P s t) (ho : o ∈ s.sent) : o ∈ t.sent := by
  obtain ⟨outs, hsent, -⟩ := h.sent
  rw [hsent]
  exact List.mem_append_left outs ho

omit [CppFloat F] in
lemma send (s : Node F M) (ho : P o) : Frame P s (s.send o) :=
  ⟨rfl, rfl, rfl, rfl, rfl, rfl, fun _ => Or.inl, [o], rfl, by simpa using ho⟩

end Frame

namespace Node

variable {lib : Lib F M} {cfg : Config F} {s : Node F M}

/-! ### Publishing -/

omit [CppFloat F] in
lemma frame_publishPoseTransform (s : Node F M) (stamp : Stamp) (msg : PoseWithCovarianceStamped F)
    (tf : TfBuffer F) : Frame (Output.Composed cfg stamp msg.stamp tf) s
      (s.publishPoseTransform lib cfg stamp msg tf).1 := by
  simp only [publishPoseTransform, publishMapToOdomTransform]
  split_ifs
  · exact Frame.send s ⟨Output.published_mapToBase _, nofun⟩
  · next henabled =>
    split
    · rfl
    · next odomToBaseLink hlookup =>
      refine ⟨rfl, rfl, rfl, rfl, rfl, rfl, ?_, [_], rfl, ?_⟩
      · rintro _ ⟨⟩
        exact Or.inr (List.mem_append_right _ (List.mem_singleton_self _))
      · intro o ho
        rw [List.mem_singleton.mp ho]
        refine ⟨Output.published_mapToOdom _, ?_⟩
        rintro _ ⟨⟩
        exact ⟨by simpa using henabled, rfl, odomToBaseLink, hlookup, rfl⟩

omit [CppFloat F] in
lemma frame_appendCurrentPoseToPath {P : Output F M → Prop} (s : Node F M) (stamp : Stamp)
    (pose : Pose F) : Frame P s (s.appendCurrentPoseToPath cfg stamp pose) :=
  ⟨rfl, rfl, rfl, rfl, rfl, rfl, fun _ => Or.inl, [], by simp [appendCurrentPoseToPath], by simp⟩

omit [CppFloat F] in
lemma frame_publishCurrentPose {msg : PoseWithCovarianceStamped F}
    (hmsg : s.correntPoseWithCovStamped = some msg) (stamp : Stamp) (tf : TfBuffer F) :
    Frame (Output.Composed cfg stamp msg.stamp tf) s (s.publishCurrentPose lib cfg stamp tf) := by
  simp only [publishCurrentPose, hmsg]
  have hpublish : Frame (Output.Composed cfg stamp msg.stamp tf) s
      ((s.send (.pose msg)).publishPoseTransform lib cfg stamp msg tf).1 :=
    (Frame.send s ⟨Output.published_pose msg, nofun⟩).trans
      (frame_publishPoseTransform _ stamp msg tf)
  split_ifs
  · exact hpublish
  · exact (hpublish.trans (frame_appendCurrentPoseToPath _ stamp msg.pose)).trans
      (Frame.send _ ⟨Output.published_path _, nofun⟩)

omit [CppFloat F] in
lemma frame_timerPublishPose (s : Node F M) (now : Stamp) (tf : TfBuffer F) :
    Frame (Output.Republished s.lastMapToOdomTransform) s
      (s.timerPublishPose lib cfg now tf) := by
  simp only [timerPublishPose]
  split
  · rfl
  · next msg hmsg =>
    split
    · rfl
    · next stamp hstamp =>
      have hsend : Frame (Output.Republished s.lastMapToOdomTransform) s
          (((s.appendCurrentPoseToPath cfg stamp msg.pose).send
            (.pose { msg with stamp := stamp })).send
            (.path (s.appendCurrentPoseToPath cfg stamp msg.pose).path)) :=
        ((frame_appendCurrentPoseToPath s stamp msg.pose).trans
          (Frame.send _ ⟨Output.published_pose _, nofun⟩)).trans
          (Frame.send _ ⟨Output.published_path _, nofun⟩)
      split_ifs with henabled
      · split
        · exact hsend
        · next held hheld =>
          refine hsend.trans (Frame.send _ ⟨Output.published_mapToOdom _, ?_⟩)
          rintro _ ⟨⟩
          exact ⟨held, hheld, rfl, rfl⟩
      · refine hsend.trans ((frame_publishPoseTransform _ _ _ _).mono fun o ho => ⟨ho.1, ?_⟩)
        intro c hc
        exact absurd (ho.2 c hc).1 henabled

/-! ### The alignment of a scan -/

variable (lib cfg)

omit [CppFloat F] in
lemma frame_runAlignmentAttempt (s : Node F M) (initGuess : M) (ready : Bool) :
    Frame (· = .align initGuess) s (s.runAlignmentAttempt cfg initGuess ready) := by
  simp only [runAlignmentAttempt, setInputTargetForPose]
  split_ifs
  all_goals first
    | contradiction
    | exact ⟨rfl, rfl, rfl, rfl, rfl, rfl, fun _ => Or.inl, [_], rfl, by simp⟩
    | exact ⟨rfl, rfl, rfl, rfl, rfl, rfl, fun _ => Or.inl, [], by simp, by simp⟩

omit [CppFloat F] in
lemma frame_retryFromLastPose (s : Node F M) (retry : Option Bool) :
    Frame (· = .align s.prediction.lastAcceptedPoseMatrix) s (s.retryFromLastPose cfg retry) := by
  cases retry with
  | none => rfl
  | some ready => exact frame_runAlignmentAttempt cfg s _ ready

/-- The prediction state has moved, but not the last accepted pose. -/
def Predicts (s t : Node F M) : Prop :=
  ∃ prediction : PredictionStateSnapshot F M,
    prediction.lastAcceptedPoseMatrix = s.prediction.lastAcceptedPoseMatrix ∧
    Frame (fun _ => False) { s with prediction := prediction } t

omit [CppFloat F] in
lemma predicts_advancePredictionWithoutMeasurement (s : Node F M) (stampSec : F)
    (twist : Option M) :
    s.Predicts (s.advancePredictionWithoutMeasurement lib cfg stampSec twist) :=
  ⟨_, PredictionStateSnapshot.lastAcceptedPoseMatrix_advanceWithoutMeasurement _ _ _, Frame.refl _⟩

omit [CppFloat F] in
lemma predicts_handleScanPreparationFailure (s : Node F M) (status : ScanPreparationStatus)
    (stampSec : F) (twist : Option M) :
    s.Predicts (s.handleScanPreparationFailure lib cfg status stampSec twist) := by
  cases status with
  | missingXyzField | filteredScanEmpty =>
    exact predicts_advancePredictionWithoutMeasurement lib cfg s stampSec twist
  | ready | transformUnavailable => exact ⟨_, rfl, Frame.refl _⟩

/-- A scan is admitted only after an initial pose; only the crop failure guard moves the
prediction. -/
lemma admitScanMessage_cases (s : Node F M) (stampSec elapsed : F) :
    ((s.admitScanMessage cfg stampSec elapsed).2 = true ∧ s.initialposeRecieved = true ∧
      (s.admitScanMessage cfg stampSec elapsed).1 = { s with hasLastCloudProcessTime := true }) ∨
    ((s.admitScanMessage cfg stampSec elapsed).2 = false ∧
      s.Predicts (s.admitScanMessage cfg stampSec elapsed).1) := by
  simp only [admitScanMessage]
  split
  · next hstatus =>
    refine Or.inl ⟨rfl, ?_, rfl⟩
    cases hreceived : s.initialposeRecieved with
    | true => rfl
    | false => simp [decideScanAdmission, hreceived] at hstatus
  · refine Or.inr ?_
    split_ifs
    · exact ⟨rfl, s.prediction, rfl,
        ⟨rfl, rfl, rfl, rfl, rfl, rfl, fun _ => Or.inl, [], by simp, by simp⟩⟩
    · exact ⟨rfl, s.prediction, rfl,
        ⟨rfl, rfl, rfl, rfl, rfl, rfl, fun _ => Or.inl, [], by simp, by simp⟩⟩
    · exact ⟨rfl, { s.prediction with
        predictedPoseMatrix := s.prediction.lastAcceptedPoseMatrix
        predictedPoseTimeSec := stampSec }, rfl,
        ⟨rfl, rfl, rfl, rfl, rfl, rfl, fun _ => Or.inl, [], by simp, by simp⟩⟩
  · exact Or.inr ⟨rfl, s.prediction, rfl, Frame.refl s⟩

/-- Either the scan goes no further, or its alignment begins, at the seed that is selected for
it. -/
lemma cloudReceived_cases (s : Node F M) (stamp : Stamp) (elapsed : F)
    (status : ScanPreparationStatus) (ready : Bool) (twist : Option M) :
    ((s.cloudReceived lib cfg stamp elapsed status ready twist).2 = none ∧
      s.Predicts (s.cloudReceived lib cfg stamp elapsed status ready twist).1) ∨
    ((s.cloudReceived lib cfg stamp elapsed status ready twist).2 =
        some ⟨stamp, s.initialPoseGeneration⟩ ∧ s.initialposeRecieved = true ∧
      Frame (· = .align (s.selectRegistrationSeed lib cfg (stampToSec stamp))) s
        (s.cloudReceived lib cfg stamp elapsed status ready twist).1) := by
  simp only [cloudReceived]
  rcases s.admitScanMessage_cases cfg (stampToSec stamp) elapsed with
    ⟨haccepted, hreceived, hnode⟩ | ⟨hrefused, hpredicts⟩
  · simp only [haccepted, Bool.not_true, Bool.false_eq_true, if_false, hnode]
    split_ifs with hstatus
    · refine Or.inl ⟨rfl, ?_⟩
      obtain ⟨prediction, hlast, hframe⟩ := predicts_handleScanPreparationFailure lib cfg
        { s with hasLastCloudProcessTime := true } status (stampToSec stamp) twist
      exact ⟨prediction, hlast, hframe.1, hframe.2, hframe.3, hframe.4, hframe.5, hframe.6,
        hframe.7, hframe.8⟩
    · refine Or.inr ⟨rfl, hreceived, ?_⟩
      have hframe := frame_runAlignmentAttempt cfg { s with hasLastCloudProcessTime := true }
        (s.selectRegistrationSeed lib cfg (stampToSec stamp)) ready
      exact ⟨hframe.1, hframe.2, hframe.3, hframe.4, hframe.5, hframe.6, hframe.7, hframe.8⟩
  · rw [hrefused]
    exact Or.inl ⟨rfl, hpredicts⟩

/-! ### The end of an alignment -/

variable {lib cfg} {alignment : Alignment F M} {pose : M}

omit [CppFloat F] in
lemma shouldContinue_of_acceptedPose (h : alignment.acceptedPose cfg = some pose) :
    alignment.shouldContinue = true := by
  by_contra hcontinue
  simp [Alignment.acceptedPose, hcontinue] at h

/-- A registration that is accepted goes through `applyAcceptedPoseBackendResult`, and the pose is
published after it, whatever that does. -/
lemma applyRegistrationPoseBackend_of_accepted (s : Node F M) (stamp : Stamp)
    (h : alignment.acceptedPose cfg = some pose) :
    s.applyRegistrationPoseBackend lib cfg stamp alignment =
      (s.applyAcceptedPoseBackendResult lib cfg (.make pose) stamp alignment.covariance, true) := by
  simp only [Alignment.acceptedPose, shouldContinue_of_acceptedPose h, Bool.not_true,
    Bool.false_eq_true, if_false] at h
  simp only [applyRegistrationPoseBackend]
  generalize selectPoseBackend cfg.useGtsamSmoother cfg.useImuPreintegration alignment.hasImuStamp
    cfg.useTwistEkf = backend at h ⊢
  cases backend with
  | gtsamSmoother =>
    obtain rfl := Option.some.inj h
    rfl
  | imuPreintegration =>
    simp only [Option.ite_none_right_eq_some, Option.some.injEq] at h
    obtain ⟨haction, rfl⟩ := h
    simp only [applyImuPreintegrationPoseBackend, haction]
    rfl
  | twistEkf =>
    obtain rfl := Option.some.inj h
    rfl
  | rawRegistration =>
    simp only [Option.ite_none_right_eq_some, Option.some.injEq] at h
    obtain ⟨haction, rfl⟩ := h
    simp only [applyRawRegistrationPoseBackend, haction]
    rfl

/-- A result that is not accepted moves the prediction, and nothing is published. -/
lemma applyPoseBackendResult_of_refused (s : Node F M) (stamp : Stamp)
    {action : LocalizationUpdateAction} (h : action ≠ .acceptMeasurement) :
    (s.applyPoseBackendResult lib cfg (.ofLocalizationUpdate pose action) stamp alignment).2 =
        false ∧
      s.Predicts (s.applyPoseBackendResult lib cfg
        (.ofLocalizationUpdate pose action) stamp alignment).1 := by
  cases action with
  | acceptMeasurement => exact absurd rfl h
  | advancePredictionWithoutMeasurement =>
    exact ⟨rfl, predicts_advancePredictionWithoutMeasurement lib cfg s _ _⟩
  | updatePredictionFromRejectedMeasurement =>
    exact ⟨rfl, _,
      PredictionStateSnapshot.lastAcceptedPoseMatrix_updateFromRejectedMeasurement pose _,
      Frame.refl _⟩

variable (lib) in
lemma applyRegistrationPoseBackend_of_refused (s : Node F M) (stamp : Stamp)
    (hcontinue : alignment.shouldContinue = true) (h : alignment.acceptedPose cfg = none) :
    (s.applyRegistrationPoseBackend lib cfg stamp alignment).2 = false ∧
      s.Predicts (s.applyRegistrationPoseBackend lib cfg stamp alignment).1 := by
  simp only [Alignment.acceptedPose, hcontinue, Bool.not_true, Bool.false_eq_true, if_false] at h
  simp only [applyRegistrationPoseBackend]
  generalize selectPoseBackend cfg.useGtsamSmoother cfg.useImuPreintegration alignment.hasImuStamp
    cfg.useTwistEkf = backend at h ⊢
  cases backend with
  | gtsamSmoother => cases h
  | imuPreintegration =>
    have haction : decideLocalizationUpdate alignment.gateResult ≠ .acceptMeasurement := by
      simpa using h
    simp only [applyImuPreintegrationPoseBackend, ne_eq, haction, not_false_eq_true, if_true]
    exact applyPoseBackendResult_of_refused s stamp haction
  | twistEkf => cases h
  | rawRegistration =>
    have haction : decideLocalizationUpdate alignment.gateResult ≠ .acceptMeasurement := by
      simpa using h
    simp only [applyRawRegistrationPoseBackend]
    exact applyPoseBackendResult_of_refused s stamp haction

variable {scan : Scan} {tf : TfBuffer F}

/-- The result of a scan whose seed was taken before an initial pose is discarded. -/
lemma cloudAligned_of_stale (h : s.initialPoseGeneration ≠ scan.seedGeneration) :
    s.cloudAligned lib cfg scan alignment tf = s.retryFromLastPose cfg alignment.retry := by
  have hretry := frame_retryFromLastPose cfg s alignment.retry
  simp only [cloudAligned, hretry.generation, ne_eq, h, not_false_eq_true, if_true]

lemma cloudAligned_of_refused (h : alignment.acceptedPose cfg = none) :
    (s.retryFromLastPose cfg alignment.retry).Predicts
      (s.cloudAligned lib cfg scan alignment tf) := by
  simp only [cloudAligned]
  split_ifs with hstale hcontinue
  · exact ⟨_, rfl, Frame.refl _⟩
  · simp only [handleTerminalAlignmentPipelineResult]
    split_ifs
    · exact predicts_advancePredictionWithoutMeasurement lib cfg _ _ _
    · exact ⟨_, rfl, Frame.refl _⟩
  · obtain ⟨happlied, hpredicts⟩ := applyRegistrationPoseBackend_of_refused lib
      (s.retryFromLastPose cfg alignment.retry) scan.stamp (by simpa using hcontinue) h
    simpa only [applyAcceptedAlignmentPipelineResult, happlied, Bool.false_and,
      Bool.false_eq_true, if_false] using hpredicts

/-- The node after a registration that is accepted, before the pose is published. -/
def applied (lib : Lib F M) (cfg : Config F) (s : Node F M) (scan : Scan)
    (alignment : Alignment F M) (pose : M) : Node F M :=
  (s.retryFromLastPose cfg alignment.retry).applyAcceptedPoseBackendResult lib cfg (.make pose)
    scan.stamp alignment.covariance

lemma cloudAligned_of_accepted (hfresh : s.initialPoseGeneration = scan.seedGeneration)
    (h : alignment.acceptedPose cfg = some pose) :
    s.cloudAligned lib cfg scan alignment tf =
      if cfg.enableTimerPublishing then s.applied lib cfg scan alignment pose
      else (s.applied lib cfg scan alignment pose).publishCurrentPose lib cfg scan.stamp tf := by
  have hretry := frame_retryFromLastPose cfg s alignment.retry
  simp only [cloudAligned, hretry.generation, hfresh, ne_eq, not_true_eq_false, if_false,
    shouldContinue_of_acceptedPose h, Bool.not_true, Bool.false_eq_true,
    applyAcceptedAlignmentPipelineResult, applyRegistrationPoseBackend_of_accepted _ _ h,
    Bool.true_and, Bool.not_eq_true', applied]
  cases cfg.enableTimerPublishing <;> rfl

/-! ### Accepting a registration -/

/-- The correction after an accepted registration that finds the odometry pose `odomToBase`. -/
def corrected (lib : Lib F M) (cfg : Config F) (s : Node F M) (pose odomToBase : M) : M :=
  match s.mapToOdomCorrection with
  | none => mapToOdomFromPoses lib pose odomToBase
  | some correction => blendRigidTransforms lib correction
      (mapToOdomFromPoses lib pose odomToBase) cfg.absoluteOdomCorrectionGain

/-- An odometry pose is found for the stamp, and the correction measured with it is finite. -/
def Measures (lib : Lib F M) (cfg : Config F) (s : Node F M) (pose : M) (stampSec : F)
    (odomToBase : M) : Prop :=
  lib.allFinite pose = true ∧ s.lookupAbsoluteOdomPose lib cfg stampSec = some odomToBase ∧
    lib.allFinite (mapToOdomFromPoses lib pose odomToBase) = true

variable {stampSec : F} {odomToBase : M}

lemma filterAcceptedMapPoseWithAbsoluteOdom_of_measures
    (h : s.Measures lib cfg pose stampSec odomToBase) :
    s.filterAcceptedMapPoseWithAbsoluteOdom lib cfg pose stampSec =
      ({ s with mapToOdomCorrection := some (s.corrected lib cfg pose odomToBase) },
        if lib.allFinite (predictMapPose lib (s.corrected lib cfg pose odomToBase) odomToBase) then
          some (predictMapPose lib (s.corrected lib cfg pose odomToBase) odomToBase)
        else none) := by
  obtain ⟨hpose, hlookup, hmeasured⟩ := h
  simp only [filterAcceptedMapPoseWithAbsoluteOdom, hpose, hlookup, hmeasured, Bool.not_true,
    Bool.false_eq_true, if_false]
  rfl

lemma filterAcceptedMapPoseWithAbsoluteOdom_of_not_measures
    (h : ∀ odomToBase, ¬s.Measures lib cfg pose stampSec odomToBase) :
    s.filterAcceptedMapPoseWithAbsoluteOdom lib cfg pose stampSec = (s, none) := by
  simp only [filterAcceptedMapPoseWithAbsoluteOdom]
  split_ifs with hpose
  · rfl
  · split
    · rfl
    · next odomToBase hlookup =>
      rw [if_pos]
      by_contra hmeasured
      exact h odomToBase ⟨by simpa using hpose, hlookup, by simpa using hmeasured⟩

/-- The pose that is taken over from a registration. -/
def filtered (lib : Lib F M) (cfg : Config F) (s : Node F M) (pose odomToBase : M) : M :=
  predictMapPose lib (s.corrected lib cfg pose odomToBase) odomToBase

variable {t : Node F M} {P : Output F M → Prop}

lemma measures_of_frame (h : Frame P s t) : t.Measures lib cfg = s.Measures lib cfg := by
  funext pose stampSec odomToBase
  simp only [Measures, lookupAbsoluteOdomPose, h.history]

lemma corrected_of_frame (h : Frame P s t) : t.corrected lib cfg = s.corrected lib cfg := by
  funext pose odomToBase
  simp only [corrected, h.correction]

/-- A registration without an odometry pose for its stamp is held back. -/
lemma applied_of_not_measures
    (h : ∀ odomToBase, ¬s.Measures lib cfg pose (stampToSec scan.stamp) odomToBase) :
    s.applied lib cfg scan alignment pose = s.retryFromLastPose cfg alignment.retry := by
  rw [← measures_of_frame (frame_retryFromLastPose cfg s alignment.retry)] at h
  simp only [applied, applyAcceptedPoseBackendResult, PoseBackendResult.make, if_true,
    filterAcceptedMapPoseWithAbsoluteOdom_of_not_measures h]

/-- It is also held back when the filtered pose is not finite, but then with the new correction. -/
lemma applied_of_not_finite
    (h : s.Measures lib cfg pose (stampToSec scan.stamp) odomToBase)
    (hfinite : lib.allFinite (s.filtered lib cfg pose odomToBase) = false) :
    s.applied lib cfg scan alignment pose = { s.retryFromLastPose cfg alignment.retry with
      mapToOdomCorrection := some (s.corrected lib cfg pose odomToBase) } := by
  have hretry := frame_retryFromLastPose cfg s alignment.retry
  rw [← measures_of_frame hretry] at h
  simp only [filtered] at hfinite
  simp only [applied, applyAcceptedPoseBackendResult, PoseBackendResult.make, if_true,
    filterAcceptedMapPoseWithAbsoluteOdom_of_measures h, corrected_of_frame hretry, hfinite,
    Bool.false_eq_true, if_false]

lemma applied_of_finite (h : s.Measures lib cfg pose (stampToSec scan.stamp) odomToBase)
    (hfinite : lib.allFinite (s.filtered lib cfg pose odomToBase) = true) :
    s.applied lib cfg scan alignment pose = { s.retryFromLastPose cfg alignment.retry with
      mapToOdomCorrection := some (s.corrected lib cfg pose odomToBase)
      correntPoseWithCovStamped := s.correntPoseWithCovStamped.map fun _ =>
        { stamp := scan.stamp
          frameId := cfg.globalFrameId
          pose := poseFromMatrix lib (s.filtered lib cfg pose odomToBase)
          covariance := alignment.covariance }
      prediction := s.prediction.updateFromAcceptedMeasurement lib
        (s.filtered lib cfg pose odomToBase) (stampToSec scan.stamp) } := by
  have hretry := frame_retryFromLastPose cfg s alignment.retry
  rw [← measures_of_frame hretry] at h
  simp only [filtered] at hfinite
  simp only [applied, applyAcceptedPoseBackendResult, PoseBackendResult.make, if_true,
    filterAcceptedMapPoseWithAbsoluteOdom_of_measures h, corrected_of_frame hretry, hfinite,
    setCurrentPoseFromMatrix, hretry.current, hretry.prediction, Option.map_map, filtered]
  rfl

variable (lib cfg) in
/-- An accepted registration changes at most the pose, the correction and the prediction. -/
lemma applied_eq (s : Node F M) (scan : Scan) (alignment : Alignment F M) (pose : M) :
    ∃ current correction prediction, s.applied lib cfg scan alignment pose =
        { s.retryFromLastPose cfg alignment.retry with
          correntPoseWithCovStamped := current
          mapToOdomCorrection := correction
          prediction := prediction } ∧
      current.isSome = s.correntPoseWithCovStamped.isSome := by
  have hretry := frame_retryFromLastPose cfg s alignment.retry
  by_cases h : ∃ odomToBase, s.Measures lib cfg pose (stampToSec scan.stamp) odomToBase
  · obtain ⟨odomToBase, h⟩ := h
    cases hfinite : lib.allFinite (s.filtered lib cfg pose odomToBase) with
    | true => exact ⟨_, _, _, applied_of_finite h hfinite, Option.isSome_map⟩
    | false => exact ⟨_, _, _, applied_of_not_finite h hfinite, congrArg _ hretry.current⟩
  · exact ⟨_, _, _, applied_of_not_measures (not_exists.mp h), congrArg _ hretry.current⟩

lemma sent_applied (s : Node F M) (scan : Scan) (alignment : Alignment F M) (pose : M) :
    (s.applied lib cfg scan alignment pose).sent =
      (s.retryFromLastPose cfg alignment.retry).sent := by
  obtain ⟨current, correction, prediction, heq, -⟩ := s.applied_eq lib cfg scan alignment pose
  rw [heq]

end Node
end PclLocalization
