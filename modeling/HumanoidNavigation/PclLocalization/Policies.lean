import HumanoidNavigation.PclLocalization.Odometry

/-!
# Admission, prediction and publication policies

The remaining policies of `lidar_localization_ros2` that the node consults: which initial poses and
which scans are admitted, how the prediction state moves, what a pose backend's result changes, and
how the published transforms are put together.
-/

namespace PclLocalization

open CppFloat Ros

variable {F M : Type} [CppFloat F]

/-! ### Admission -/

/-- `decideInitialPoseAdmission`: whether the pose is accepted. -/
def decideInitialPoseAdmission (lib : Lib F M) (expectedFrameId : String)
    (msg : PoseWithCovarianceStamped F) : Bool :=
  msg.frameId == expectedFrameId && isPoseFinite lib msg.pose

inductive ScanAdmissionStatus where
  | accepted
  | waitingForMapOrInitialPose
  | predatesInitialPose
  | throttledByMinScanInterval
  | cropFailureGuard
  deriving DecidableEq

structure ScanAdmissionInput (F : Type) where
  mapReceived : Bool
  initialPoseReceived : Bool
  scanStampSec : F
  lastInitialPoseStampSec : F
  minScanIntervalSec : F
  hasLastProcessTime : Bool
  elapsedSinceLastProcessSec : F
  consecutiveCropFailures : ℕ

/-- `decideScanAdmission`, with its threshold of 100 crop failures. -/
def decideScanAdmission (input : ScanAdmissionInput F) : ScanAdmissionStatus :=
  if !input.mapReceived || !input.initialPoseReceived then .waitingForMapOrInitialPose
  else if !lt input.lastInitialPoseStampSec (lit 0) &&
      lt input.scanStampSec input.lastInitialPoseStampSec then .predatesInitialPose
  else if lt (lit 0) input.minScanIntervalSec && input.hasLastProcessTime &&
      lt input.elapsedSinceLastProcessSec input.minScanIntervalSec then .throttledByMinScanInterval
  else if 100 < input.consecutiveCropFailures then .cropFailureGuard
  else .accepted

inductive ScanPreparationStatus where
  | ready
  | missingXyzField
  | transformUnavailable
  | filteredScanEmpty
  deriving DecidableEq

/-! ### The prediction state -/

structure PredictionStateSnapshot (F M : Type) where
  haveLastAcceptedPose : Bool
  lastAcceptedPoseMatrix : M
  predictedPoseMatrix : M
  lastRelativeMotionMatrix : M
  consecutiveRejectedUpdates : ℕ
  lastAcceptedPoseTimeSec : F
  predictedPoseTimeSec : F
  deriving DecidableEq

namespace PredictionStateSnapshot

variable (lib : Lib F M)

def init : PredictionStateSnapshot F M where
  haveLastAcceptedPose := false
  lastAcceptedPoseMatrix := lib.identity
  predictedPoseMatrix := lib.identity
  lastRelativeMotionMatrix := lib.identity
  consecutiveRejectedUpdates := 0
  lastAcceptedPoseTimeSec := lit 0
  predictedPoseTimeSec := lit 0

/-- `resetPredictionState` -/
def reset (poseMatrix : M) (stampSec : F) : PredictionStateSnapshot F M where
  haveLastAcceptedPose := true
  lastAcceptedPoseMatrix := poseMatrix
  predictedPoseMatrix := poseMatrix
  lastRelativeMotionMatrix := lib.identity
  consecutiveRejectedUpdates := 0
  lastAcceptedPoseTimeSec := stampSec
  predictedPoseTimeSec := stampSec

/-- `updatePredictionStateFromAcceptedMeasurement` -/
def updateFromAcceptedMeasurement (current : PredictionStateSnapshot F M) (acceptedPoseMatrix : M)
    (stampSec : F) : PredictionStateSnapshot F M :=
  if !current.haveLastAcceptedPose then reset lib acceptedPoseMatrix stampSec
  else
    let motion := if current.consecutiveRejectedUpdates = 0 then
      lib.mul (lib.inverse current.lastAcceptedPoseMatrix) acceptedPoseMatrix
    else current.lastRelativeMotionMatrix
    { haveLastAcceptedPose := true
      lastAcceptedPoseMatrix := acceptedPoseMatrix
      predictedPoseMatrix := lib.mul acceptedPoseMatrix motion
      lastRelativeMotionMatrix := motion
      consecutiveRejectedUpdates := 0
      lastAcceptedPoseTimeSec := stampSec
      predictedPoseTimeSec := stampSec }

inductive AdvanceMode where
  | none
  | twistPrediction
  | previousDelta

/-- `choosePredictionAdvanceMode` -/
def chooseAdvanceMode (current : PredictionStateSnapshot F M)
    (useTwistPrediction hasLatestTwist predictPoseFromPreviousDelta : Bool) : AdvanceMode :=
  if !current.haveLastAcceptedPose then .none
  else if useTwistPrediction && hasLatestTwist then .twistPrediction
  else if predictPoseFromPreviousDelta then .previousDelta
  else .none

/-- `advancePredictionWithoutMeasurement` -/
def advanceWithoutMeasurement (current : PredictionStateSnapshot F M) (stampSec : F)
    (mode : AdvanceMode) (twistPredictedPoseMatrix : M) : PredictionStateSnapshot F M :=
  if !current.haveLastAcceptedPose then current
  else match mode with
    | .none => current
    | .twistPrediction => { current with
        predictedPoseMatrix := twistPredictedPoseMatrix
        predictedPoseTimeSec := stampSec
        consecutiveRejectedUpdates := current.consecutiveRejectedUpdates + 1 }
    | .previousDelta => { current with
        predictedPoseMatrix :=
          lib.mul current.predictedPoseMatrix current.lastRelativeMotionMatrix
        predictedPoseTimeSec := stampSec
        consecutiveRejectedUpdates := current.consecutiveRejectedUpdates + 1 }

/-- `updatePredictionFromRejectedMeasurement` -/
def updateFromRejectedMeasurement (current : PredictionStateSnapshot F M) (rejectedPoseMatrix : M)
    (stampSec : F) : PredictionStateSnapshot F M :=
  if !current.haveLastAcceptedPose then current
  else { current with
    predictedPoseMatrix := rejectedPoseMatrix
    predictedPoseTimeSec := stampSec
    consecutiveRejectedUpdates := current.consecutiveRejectedUpdates + 1 }

variable {lib} {s : PredictionStateSnapshot F M}

omit [CppFloat F] in
@[simp] lemma lastAcceptedPoseMatrix_advanceWithoutMeasurement (stampSec : F) (mode : AdvanceMode)
    (twist : M) : (s.advanceWithoutMeasurement lib stampSec mode twist).lastAcceptedPoseMatrix =
      s.lastAcceptedPoseMatrix := by
  simp only [advanceWithoutMeasurement]
  split_ifs
  · rfl
  · cases mode <;> rfl

omit [CppFloat F] in
@[simp] lemma lastAcceptedPoseMatrix_updateFromRejectedMeasurement (pose : M) (stampSec : F) :
    (s.updateFromRejectedMeasurement pose stampSec).lastAcceptedPoseMatrix =
      s.lastAcceptedPoseMatrix := by
  simp only [updateFromRejectedMeasurement]
  split_ifs <;> rfl

end PredictionStateSnapshot

/-! ### The result of a pose backend -/

structure MeasurementGateDecision where
  rejectMeasurement : Bool
  rejectedSeedUpdateApplied : Bool
  deriving DecidableEq

structure PoseBackendResult (M : Type) where
  poseMatrix : M
  updateCurrentPose : Bool
  updatePredictionState : Bool
  advancePredictionWithoutMeasurement : Bool
  updatePredictionFromRejectedMeasurement : Bool
  fillPoseCovariance : Bool
  continueToPosePublish : Bool

/-- `makePoseBackendResult` -/
def PoseBackendResult.make (poseMatrix : M) : PoseBackendResult M where
  poseMatrix := poseMatrix
  updateCurrentPose := true
  updatePredictionState := true
  advancePredictionWithoutMeasurement := false
  updatePredictionFromRejectedMeasurement := false
  fillPoseCovariance := true
  continueToPosePublish := true

inductive LocalizationUpdateAction where
  | acceptMeasurement
  | advancePredictionWithoutMeasurement
  | updatePredictionFromRejectedMeasurement
  deriving DecidableEq

/-- `decideLocalizationUpdate` -/
def decideLocalizationUpdate (gate : MeasurementGateDecision) : LocalizationUpdateAction :=
  if !gate.rejectMeasurement then .acceptMeasurement
  else if gate.rejectedSeedUpdateApplied then .updatePredictionFromRejectedMeasurement
  else .advancePredictionWithoutMeasurement

/-- `makePoseBackendResultFromLocalizationUpdate`, of the decision with this action -/
def PoseBackendResult.ofLocalizationUpdate (poseMatrix : M) (action : LocalizationUpdateAction) :
    PoseBackendResult M where
  poseMatrix := poseMatrix
  updateCurrentPose := action == .acceptMeasurement
  updatePredictionState := action == .acceptMeasurement
  advancePredictionWithoutMeasurement := action == .advancePredictionWithoutMeasurement
  updatePredictionFromRejectedMeasurement := action == .updatePredictionFromRejectedMeasurement
  fillPoseCovariance := action == .acceptMeasurement
  continueToPosePublish := action == .acceptMeasurement

inductive PoseBackendKind where
  | gtsamSmoother
  | imuPreintegration
  | twistEkf
  | rawRegistration
  deriving DecidableEq

/-- `selectPoseBackend` -/
def selectPoseBackend (useGtsamSmoother useImuPreintegration hasImuStamp useTwistEkf : Bool) :
    PoseBackendKind :=
  if useGtsamSmoother then .gtsamSmoother
  else if useImuPreintegration && hasImuStamp then .imuPreintegration
  else if useTwistEkf then .twistEkf
  else .rawRegistration

/-! ### What is published -/

/-- `poseFromMatrix` -/
def poseFromMatrix (lib : Lib F M) (poseMatrix : M) : Pose F :=
  ⟨lib.translation poseMatrix, lib.rotationDouble poseMatrix⟩

/-- `makeMapToBaseTransform` -/
def makeMapToBaseTransform (stamp : Stamp) (globalFrameId baseFrameId : String) (pose : Pose F) :
    TransformStamped F :=
  ⟨stamp, globalFrameId, baseFrameId, ⟨pose.position, pose.orientation⟩⟩

/-- `composeMapToOdomTransform` -/
def composeMapToOdomTransform (lib : Lib F M) (stamp : Stamp) (globalFrameId odomFrameId : String)
    (mapToBaseLink odomToBaseLink : TransformStamped F) : TransformStamped F :=
  ⟨stamp, globalFrameId, odomFrameId,
    lib.mulInverse mapToBaseLink.transform odomToBaseLink.transform⟩

/-- The part of a `tf2` buffer that the node reads: the transforms from the odometry frame to the
base frame. -/
structure TfBuffer (F : Type) where
  latest : Option (Stamp × Transform F)
  /-- the transform at a stamp, where there is one or one arrives in time -/
  transformAt : Stamp → Option (Transform F)

/-- `tf2_ros::Buffer::lookupTransform`. The stamp zero stands for the latest transform. -/
def TfBuffer.lookupTransform (tf : TfBuffer F) (odomFrameId baseFrameId : String) (stamp : Stamp) :
    Option (TransformStamped F) :=
  if stamp = ⟨0, 0⟩ then
    tf.latest.map fun (latest, transform) => ⟨latest, odomFrameId, baseFrameId, transform⟩
  else (tf.transformAt stamp).map fun transform => ⟨stamp, odomFrameId, baseFrameId, transform⟩

omit [CppFloat F] in
/-- A lookup at a stamp other than zero returns a transform of that stamp. -/
lemma TfBuffer.stamp_of_lookupTransform {tf : TfBuffer F} {odomFrameId baseFrameId : String}
    {stamp : Stamp} {transform : TransformStamped F} (hstamp : stamp ≠ ⟨0, 0⟩)
    (h : tf.lookupTransform odomFrameId baseFrameId stamp = some transform) :
    transform.stamp = stamp := by
  simp only [lookupTransform, if_neg hstamp, Option.map_eq_some_iff] at h
  obtain ⟨_, -, rfl⟩ := h
  rfl

end PclLocalization
