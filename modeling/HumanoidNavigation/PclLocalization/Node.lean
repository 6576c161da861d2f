import HumanoidNavigation.PclLocalization.Policies
import HumanoidNavigation.Transition.Run

/-!
# The localization node

The callbacks of `PCLLocalization` with `use_absolute_odom_pose_prediction` on: the current pose is
moved by the odometry through a cached map-to-odometry correction, and accepted registrations
correct that correction. The outcome of a registration, the poses of the smoothers and what the
`tf2` buffer answers come with the events.
-/

namespace PclLocalization

open CppFloat Ros Transition

variable {F M : Type} [CppFloat F]

structure Config (F : Type) where
  globalFrameId : String
  odomFrameId : String
  baseFrameId : String
  enableMapOdomTf : Bool
  enableTimerPublishing : Bool
  minScanIntervalSec : F
  absoluteOdomCorrectionGain : F
  absoluteOdomMaxTimeDeltaSec : F
  absoluteOdomHistorySize : ℕ
  useTwistPrediction : Bool
  predictPoseFromPreviousDelta : Bool
  useGtsamSmoother : Bool
  useImuPreintegration : Bool
  useTwistEkf : Bool
  useLocalMapCrop : Bool

/-- The parameters that the node declares, with the absolute odometry switched on. -/
def Config.parameters : Config F where
  globalFrameId := "map"
  odomFrameId := "odom"
  baseFrameId := "base_link"
  enableMapOdomTf := false
  enableTimerPublishing := false
  minScanIntervalSec := lit 0
  absoluteOdomCorrectionGain := lit (1 / 10)
  absoluteOdomMaxTimeDeltaSec := lit (1 / 20)
  absoluteOdomHistorySize := 200
  useTwistPrediction := false
  predictPoseFromPreviousDelta := true
  useGtsamSmoother := false
  useImuPreintegration := true
  useTwistEkf := false
  useLocalMapCrop := false

/-- A transform from the map to the odometry frame, with the stamps of the pose and of the
transform from the odometry frame to the base that it is composed from. -/
structure MapToOdom (F : Type) where
  transform : TransformStamped F
  poseStamp : Stamp
  odomToBaseStamp : Stamp
  deriving DecidableEq

/-- What the node sends, and the calls of `registration_->align`. -/
inductive Output (F M : Type) where
  | pose (msg : PoseWithCovarianceStamped F)
  | path (poses : List (PoseStamped F))
  | mapToBase (transform : TransformStamped F)
  | mapToOdom (composed : MapToOdom F)
  | align (initGuess : M)
  deriving DecidableEq

structure Node (F M : Type) where
  mapRecieved : Bool
  initialposeRecieved : Bool
  lastInitialPoseStampSec : F
  initialPoseGeneration : ℕ
  correntPoseWithCovStamped : Option (PoseWithCovarianceStamped F)
  absoluteOdomHistory : List (TimedPoseMatrix F M)
  mapToOdomCorrection : Option M
  prediction : PredictionStateSnapshot F M
  consecutiveCropFailures : ℕ
  cropFailureGuardActive : Bool
  hasLastCloudProcessTime : Bool
  lastMapToOdomTransform : Option (MapToOdom F)
  path : List (PoseStamped F)
  sent : List (Output F M)

/-- What a scan takes along while it is being aligned. -/
structure Scan where
  stamp : Stamp
  seedGeneration : ℕ
  deriving DecidableEq

/-- How the alignment of a scan ends: `AlignmentPipelineResult`, and what the pose backends make of
it. -/
structure Alignment (F M : Type) where
  /-- whether there is a second attempt, from the last accepted pose, and whether its target can be
  set -/
  retry : Option Bool
  shouldContinue : Bool
  shouldAdvancePredictionWithoutMeasurement : Bool
  gateResult : MeasurementGateDecision
  finalTransformation : M
  hasImuStamp : Bool
  smootherPose : M
  /-- the prediction from the latest twist, when there is a twist -/
  twistPredictedPoseMatrix : Option M
  covariance : List F

namespace Node

variable (lib : Lib F M) (cfg : Config F)

def init : Node F M where
  mapRecieved := false
  initialposeRecieved := false
  lastInitialPoseStampSec := lit (-1)
  initialPoseGeneration := 0
  correntPoseWithCovStamped := none
  absoluteOdomHistory := []
  mapToOdomCorrection := none
  prediction := PredictionStateSnapshot.init lib
  consecutiveCropFailures := 0
  cropFailureGuardActive := false
  hasLastCloudProcessTime := false
  lastMapToOdomTransform := none
  path := []
  sent := []

def send (s : Node F M) (output : Output F M) : Node F M := { s with sent := s.sent ++ [output] }

/-- `currentPoseMatrix` -/
def currentPoseMatrix (s : Node F M) : M :=
  match s.correntPoseWithCovStamped with
  | none => lib.identity
  | some pose => lib.fromMsg pose.pose

/-- `setCurrentPoseFromMatrix` -/
def setCurrentPoseFromMatrix (s : Node F M) (poseMatrix : M) (stamp : Stamp) : Node F M :=
  { s with
    correntPoseWithCovStamped := s.correntPoseWithCovStamped.map fun pose =>
      { pose with
        stamp := stamp
        frameId := cfg.globalFrameId
        pose := poseFromMatrix lib poseMatrix } }

/-! ### The correction -/

/-- `cacheAbsoluteOdomPose` -/
def cacheAbsoluteOdomPose (s : Node F M) (stampSec : F) (odomToBase : M) : Node F M :=
  if !lib.isFinite stampSec || !lib.allFinite odomToBase then s
  else
    let kept := match s.absoluteOdomHistory.getLast? with
      | none => []
      | some back => if lt stampSec back.stampSec then [] else s.absoluteOdomHistory
    let history := kept ++ [⟨stampSec, odomToBase⟩]
    { s with absoluteOdomHistory := history.drop (history.length - cfg.absoluteOdomHistorySize) }

/-- `lookupAbsoluteOdomPose` -/
def lookupAbsoluteOdomPose (s : Node F M) (stampSec : F) : Option M :=
  nearestTimedPose lib s.absoluteOdomHistory stampSec cfg.absoluteOdomMaxTimeDeltaSec

/-- `resetMapToOdomCorrection`, with `none` for the result `false`, which leaves the node as it
is. -/
def resetMapToOdomCorrection (s : Node F M) (mapToBase : M) (stampSec : F) :
    Option (Node F M) :=
  match s.lookupAbsoluteOdomPose lib cfg stampSec with
  | none => none
  | some odomToBase =>
    let mapToOdom := mapToOdomFromPoses lib mapToBase odomToBase
    if !lib.allFinite mapToOdom then none else some { s with mapToOdomCorrection := some mapToOdom }

/-- `predictMapPoseFromAbsoluteOdom` of the node, with `none` for the result `false` -/
def predictMapPoseFromAbsoluteOdom (s : Node F M) (stampSec : F) : Option M :=
  match s.lookupAbsoluteOdomPose lib cfg stampSec, s.mapToOdomCorrection with
  | some odomToBase, some mapToOdom =>
    let mapToBase := predictMapPose lib mapToOdom odomToBase
    if lib.allFinite mapToBase then some mapToBase else none
  | _, _ => none

/-- `filterAcceptedMapPoseWithAbsoluteOdom`, with `none` for the result `false`. The correction is
written before the filtered pose is checked. -/
def filterAcceptedMapPoseWithAbsoluteOdom (s : Node F M) (measuredMapToBase : M) (stampSec : F) :
    Node F M × Option M :=
  if !lib.allFinite measuredMapToBase then (s, none)
  else match s.lookupAbsoluteOdomPose lib cfg stampSec with
    | none => (s, none)
    | some odomToBase =>
      let measuredMapToOdom := mapToOdomFromPoses lib measuredMapToBase odomToBase
      if !lib.allFinite measuredMapToOdom then (s, none)
      else
        let correction := match s.mapToOdomCorrection with
          | none => measuredMapToOdom
          | some correction =>
            blendRigidTransforms lib correction measuredMapToOdom cfg.absoluteOdomCorrectionGain
        let filtered := predictMapPose lib correction odomToBase
        ({ s with mapToOdomCorrection := some correction },
          if lib.allFinite filtered then some filtered else none)

/-! ### Publishing -/

/-- `publishMapToOdomTransform` -/
def publishMapToOdomTransform (s : Node F M) (stamp : Stamp) (poseStamp : Stamp)
    (mapToBaseLink : TransformStamped F) (tf : TfBuffer F) : Node F M × Bool :=
  match tf.lookupTransform cfg.odomFrameId cfg.baseFrameId stamp with
  | none => (s, false)
  | some odomToBaseLink =>
    let composed : MapToOdom F :=
      { transform := composeMapToOdomTransform lib stamp cfg.globalFrameId cfg.odomFrameId
          mapToBaseLink odomToBaseLink
        poseStamp := poseStamp
        odomToBaseStamp := odomToBaseLink.stamp }
    ({ s with lastMapToOdomTransform := some composed }.send (.mapToOdom composed), true)

/-- `publishPoseTransform`, of the pose in `msg`. -/
def publishPoseTransform (s : Node F M) (stamp : Stamp) (msg : PoseWithCovarianceStamped F)
    (tf : TfBuffer F) : Node F M × Bool :=
  let mapToBaseLink := makeMapToBaseTransform stamp cfg.globalFrameId cfg.baseFrameId msg.pose
  if !cfg.enableMapOdomTf then (s.send (.mapToBase mapToBaseLink), true)
  else s.publishMapToOdomTransform lib cfg stamp msg.stamp mapToBaseLink tf

/-- `appendCurrentPoseToPath` -/
def appendCurrentPoseToPath (s : Node F M) (stamp : Stamp) (pose : Pose F) : Node F M :=
  { s with path := s.path ++ [⟨stamp, cfg.globalFrameId, pose⟩] }

/-- `publishCurrentPose` -/
def publishCurrentPose (s : Node F M) (stamp : Stamp) (tf : TfBuffer F) : Node F M :=
  match s.correntPoseWithCovStamped with
  | none => s
  | some msg =>
    let (s, sent) := (s.send (.pose msg)).publishPoseTransform lib cfg stamp msg tf
    if !sent then s
    else
      let s := s.appendCurrentPoseToPath cfg stamp msg.pose
      s.send (.path s.path)

/-- `timerPublishPose`. The stamp is `now`, or that of the latest transform from the odometry frame
to the base. -/
def timerPublishPose (s : Node F M) (now : Stamp) (tf : TfBuffer F) : Node F M :=
  match s.correntPoseWithCovStamped with
  | none => s
  | some msg =>
    let publishStamp := if cfg.enableMapOdomTf then
        (tf.lookupTransform cfg.odomFrameId cfg.baseFrameId ⟨0, 0⟩).map (·.stamp)
      else some now
    match publishStamp with
    | none => s
    | some stamp =>
      let msg := { msg with stamp := stamp }
      let s := s.appendCurrentPoseToPath cfg msg.stamp msg.pose
      let s := (s.send (.pose msg)).send (.path s.path)
      if cfg.enableMapOdomTf then
        match s.lastMapToOdomTransform with
        | none => s
        | some held =>
          s.send (.mapToOdom { held with transform := { held.transform with stamp := stamp } })
      else (s.publishPoseTransform lib cfg msg.stamp msg tf).1

/-! ### Initial poses, maps and odometry -/

/-- `normalizeInitialPoseStamp` -/
def normalizeInitialPoseStamp (requestedStamp : Stamp) (tf : TfBuffer F) : Stamp :=
  if !cfg.enableMapOdomTf then requestedStamp
  else match tf.lookupTransform cfg.odomFrameId cfg.baseFrameId ⟨0, 0⟩ with
    | some latestOdomToBase => latestOdomToBase.stamp
    | none => ⟨0, 0⟩

/-- The part of `initialPoseReceived` that takes over the pose, for a message with its stamp
normalized. -/
def anchor (s : Node F M) (msg : PoseWithCovarianceStamped F) : Node F M :=
  let stampSec := stampToSec msg.stamp
  let s : Node F M := { s with
    initialposeRecieved := true
    lastInitialPoseStampSec := stampSec
    initialPoseGeneration := s.initialPoseGeneration + 1
    correntPoseWithCovStamped := some msg }
  let s := (s.resetMapToOdomCorrection lib cfg (s.currentPoseMatrix lib) stampSec).getD s
  { s with
    consecutiveCropFailures := 0
    cropFailureGuardActive := false
    prediction := PredictionStateSnapshot.reset lib (s.currentPoseMatrix lib) stampSec }

/-- `initialPoseReceived`. The buffer is read for the stamp and again for the transform. -/
def initialPoseReceived (s : Node F M) (msg : PoseWithCovarianceStamped F)
    (tf tfLater : TfBuffer F) : Node F M :=
  if !decideInitialPoseAdmission lib cfg.globalFrameId msg then s
  else
    let msg := { msg with stamp := normalizeInitialPoseStamp cfg msg.stamp tf }
    let s := (s.anchor lib cfg msg).send (.pose msg)
    (s.publishPoseTransform lib cfg msg.stamp msg tfLater).1

/-- `mapReceived` -/
def mapReceived (s : Node F M) (frameId : String) : Node F M :=
  if frameId ≠ cfg.globalFrameId then s else { s with mapRecieved := true }

/-- `odomReceived` -/
def odomReceived (s : Node F M) (stamp : Stamp) (pose : Pose F) : Node F M :=
  let stampSec := stampToSec stamp
  match poseMatrixFromPose lib pose with
  | none => s
  | some odomToBase =>
    let s := s.cacheAbsoluteOdomPose lib cfg stampSec odomToBase
    if !s.initialposeRecieved || s.correntPoseWithCovStamped.isNone then s
    else match s.predictMapPoseFromAbsoluteOdom lib cfg stampSec with
      | some mapToBase => s.setCurrentPoseFromMatrix lib cfg mapToBase stamp
      | none =>
        match s.resetMapToOdomCorrection lib cfg (s.currentPoseMatrix lib) stampSec with
        | none => s
        | some s => s.setCurrentPoseFromMatrix lib cfg (s.currentPoseMatrix lib) stamp

/-! ### Scans -/

/-- `admitScanMessage`, with the result `accepted` -/
def admitScanMessage (s : Node F M) (stampSec elapsedSinceLastProcessSec : F) : Node F M × Bool :=
  let status := decideScanAdmission
    { mapReceived := s.mapRecieved
      initialPoseReceived := s.initialposeRecieved
      scanStampSec := stampSec
      lastInitialPoseStampSec := s.lastInitialPoseStampSec
      minScanIntervalSec := cfg.minScanIntervalSec
      hasLastProcessTime := s.hasLastCloudProcessTime
      elapsedSinceLastProcessSec := elapsedSinceLastProcessSec
      consecutiveCropFailures := s.consecutiveCropFailures }
  match status with
  | .accepted => ({ s with hasLastCloudProcessTime := true }, true)
  | .cropFailureGuard =>
    let s := { s with hasLastCloudProcessTime := true }
    if s.cropFailureGuardActive then (s, false)
    else
      let s := { s with cropFailureGuardActive := true }
      if !s.prediction.haveLastAcceptedPose then (s, false)
      else
        ({ s with prediction := { s.prediction with
            predictedPoseMatrix := s.prediction.lastAcceptedPoseMatrix
            predictedPoseTimeSec := stampSec } }, false)
  | _ => (s, false)

/-- `advancePredictionWithoutMeasurement` of the node -/
def advancePredictionWithoutMeasurement (s : Node F M) (stampSec : F)
    (twistPredictedPoseMatrix : Option M) : Node F M :=
  let mode := s.prediction.chooseAdvanceMode cfg.useTwistPrediction
    twistPredictedPoseMatrix.isSome cfg.predictPoseFromPreviousDelta
  { s with
    prediction := s.prediction.advanceWithoutMeasurement lib stampSec mode
      (twistPredictedPoseMatrix.getD lib.identity) }

/-- `handleScanPreparationFailure` -/
def handleScanPreparationFailure (s : Node F M) (status : ScanPreparationStatus) (stampSec : F)
    (twistPredictedPoseMatrix : Option M) : Node F M :=
  match status with
  | .missingXyzField | .filteredScanEmpty =>
    s.advancePredictionWithoutMeasurement lib cfg stampSec twistPredictedPoseMatrix
  | .ready | .transformUnavailable => s

/-- `setInputTargetForPose`, where `ready` says whether the local map can be cropped, with its
result -/
def setInputTargetForPose (s : Node F M) (ready : Bool) : Node F M × Bool :=
  if !cfg.useLocalMapCrop then (s, true)
  else if ready then
    ({ s with consecutiveCropFailures := 0, cropFailureGuardActive := false }, true)
  else
    let failures := s.consecutiveCropFailures
    ({ s with consecutiveCropFailures := if failures = 2 ^ 31 - 1 then failures else failures + 1 },
      false)

/-- `runAlignmentAttempt`, up to the call of `align` -/
def runAlignmentAttempt (s : Node F M) (initGuess : M) (ready : Bool) : Node F M :=
  let (s, ready) := s.setInputTargetForPose cfg ready
  if ready then s.send (.align initGuess) else s

/-- `selectRegistrationSeed` -/
def selectRegistrationSeed (s : Node F M) (scanStampSec : F) : M :=
  (s.predictMapPoseFromAbsoluteOdom lib cfg scanStampSec).getD (s.currentPoseMatrix lib)

/-- `cloudReceived`, to the point where the first attempt to align the scan begins. -/
def cloudReceived (s : Node F M) (stamp : Stamp) (elapsedSinceLastProcessSec : F)
    (status : ScanPreparationStatus) (ready : Bool) (twistPredictedPoseMatrix : Option M) :
    Node F M × Option Scan :=
  let stampSec := stampToSec stamp
  let (s, accepted) := s.admitScanMessage cfg stampSec elapsedSinceLastProcessSec
  if !accepted then (s, none)
  else if status ≠ .ready then
    (s.handleScanPreparationFailure lib cfg status stampSec twistPredictedPoseMatrix, none)
  else
    let initGuess := s.selectRegistrationSeed lib cfg stampSec
    (s.runAlignmentAttempt cfg initGuess ready,
      some { stamp := stamp, seedGeneration := s.initialPoseGeneration })

/-- `applyAcceptedPoseBackendResult` -/
def applyAcceptedPoseBackendResult (s : Node F M) (result : PoseBackendResult M) (stamp : Stamp)
    (covariance : List F) : Node F M :=
  let stampSec := stampToSec stamp
  let (s, poseToApply) := if result.updateCurrentPose then
      s.filterAcceptedMapPoseWithAbsoluteOdom lib cfg result.poseMatrix stampSec
    else (s, some result.poseMatrix)
  match poseToApply with
  | none => s
  | some poseToApply =>
    let s := if result.updateCurrentPose then s.setCurrentPoseFromMatrix lib cfg poseToApply stamp
      else s
    let s := if result.fillPoseCovariance then
        { s with correntPoseWithCovStamped := s.correntPoseWithCovStamped.map fun pose =>
            { pose with covariance := covariance } }
      else s
    if result.updatePredictionState then
      { s with prediction := s.prediction.updateFromAcceptedMeasurement lib poseToApply stampSec }
    else s

/-- `applyPoseBackendResult` -/
def applyPoseBackendResult (s : Node F M) (result : PoseBackendResult M) (stamp : Stamp)
    (alignment : Alignment F M) : Node F M × Bool :=
  let stampSec := stampToSec stamp
  if result.advancePredictionWithoutMeasurement then
    (s.advancePredictionWithoutMeasurement lib cfg stampSec alignment.twistPredictedPoseMatrix,
      result.continueToPosePublish)
  else if result.updatePredictionFromRejectedMeasurement then
    ({ s with
      prediction := s.prediction.updateFromRejectedMeasurement result.poseMatrix stampSec },
      result.continueToPosePublish)
  else
    (s.applyAcceptedPoseBackendResult lib cfg result stamp alignment.covariance,
      result.continueToPosePublish)

/-- `applyPlanarSmootherPoseBackendUpdate` -/
def applyPlanarSmootherPoseBackendUpdate (s : Node F M) (stamp : Stamp)
    (alignment : Alignment F M) : Node F M × Bool :=
  ((s.applyPoseBackendResult lib cfg (.make alignment.smootherPose) stamp alignment).1, true)

/-- `applyImuPreintegrationPoseBackend` -/
def applyImuPreintegrationPoseBackend (s : Node F M) (stamp : Stamp) (alignment : Alignment F M) :
    Node F M × Bool :=
  let action := decideLocalizationUpdate alignment.gateResult
  if action ≠ .acceptMeasurement then
    s.applyPoseBackendResult lib cfg (.ofLocalizationUpdate alignment.finalTransformation action)
      stamp alignment
  else ((s.applyPoseBackendResult lib cfg (.make alignment.smootherPose) stamp alignment).1, true)

/-- `applyRawRegistrationPoseBackend` -/
def applyRawRegistrationPoseBackend (s : Node F M) (stamp : Stamp) (alignment : Alignment F M) :
    Node F M × Bool :=
  s.applyPoseBackendResult lib cfg
    (.ofLocalizationUpdate alignment.finalTransformation
      (decideLocalizationUpdate alignment.gateResult))
    stamp alignment

/-- `applyRegistrationPoseBackend` -/
def applyRegistrationPoseBackend (s : Node F M) (stamp : Stamp) (alignment : Alignment F M) :
    Node F M × Bool :=
  match selectPoseBackend cfg.useGtsamSmoother cfg.useImuPreintegration alignment.hasImuStamp
      cfg.useTwistEkf with
  | .gtsamSmoother | .twistEkf => s.applyPlanarSmootherPoseBackendUpdate lib cfg stamp alignment
  | .imuPreintegration => s.applyImuPreintegrationPoseBackend lib cfg stamp alignment
  | .rawRegistration => s.applyRawRegistrationPoseBackend lib cfg stamp alignment

/-- `handleTerminalAlignmentPipelineResult`, of a result that is terminal -/
def handleTerminalAlignmentPipelineResult (s : Node F M) (stamp : Stamp)
    (alignment : Alignment F M) : Node F M :=
  if alignment.shouldAdvancePredictionWithoutMeasurement then
    s.advancePredictionWithoutMeasurement lib cfg (stampToSec stamp)
      alignment.twistPredictedPoseMatrix
  else s

/-- `applyAcceptedAlignmentPipelineResult`, of a result that is not terminal -/
def applyAcceptedAlignmentPipelineResult (s : Node F M) (stamp : Stamp)
    (alignment : Alignment F M) (tf : TfBuffer F) : Node F M :=
  let (s, applied) := s.applyRegistrationPoseBackend lib cfg stamp alignment
  if applied && !cfg.enableTimerPublishing then s.publishCurrentPose lib cfg stamp tf else s

/-- The second attempt to align a scan, if there is one. -/
def retryFromLastPose (s : Node F M) (retry : Option Bool) : Node F M :=
  match retry with
  | none => s
  | some ready => s.runAlignmentAttempt cfg s.prediction.lastAcceptedPoseMatrix ready

/-- `cloudReceived`, from the end of the first attempt to align the scan. -/
def cloudAligned (s : Node F M) (scan : Scan) (alignment : Alignment F M) (tf : TfBuffer F) :
    Node F M :=
  let s := s.retryFromLastPose cfg alignment.retry
  if s.initialPoseGeneration ≠ scan.seedGeneration then s
  else if !alignment.shouldContinue then
    s.handleTerminalAlignmentPipelineResult lib cfg scan.stamp alignment
  else s.applyAcceptedAlignmentPipelineResult lib cfg scan.stamp alignment tf

end Node

/-! ### The system -/

inductive Event (F M : Type) where
  | map (frameId : String)
  | odom (stamp : Stamp) (pose : Pose F)
  | initialPose (msg : PoseWithCovarianceStamped F) (tf tfLater : TfBuffer F)
  | cloud (stamp : Stamp) (elapsedSinceLastProcessSec : F) (status : ScanPreparationStatus)
      (ready : Bool) (twistPredictedPoseMatrix : Option M)
  | aligned (alignment : Alignment F M) (tf : TfBuffer F)
  | timer (now : Stamp) (tf : TfBuffer F)

/-- The node and the scan that it is aligning. -/
structure World (F M : Type) where
  node : Node F M
  scan : Option Scan

/-- Deliver one event. A callback is one step, but for that of a scan, which is two: it seeds the
alignment, and when that has ended it applies the result and publishes. The callbacks exclude one
another, apart from that for initial poses, which has a callback group and a thread of its own: it
runs between the others and while a scan is being aligned. That its lines may also come between
those of another callback, which share the current pose without a lock, is left out. -/
def World.step (lib : Lib F M) (cfg : Config F) (w : World F M) : Event F M → Option (World F M)
  | .initialPose msg tf tfLater =>
    some { w with node := w.node.initialPoseReceived lib cfg msg tf tfLater }
  | .map frameId =>
    if w.scan.isSome then none else some { w with node := w.node.mapReceived cfg frameId }
  | .odom stamp pose =>
    if w.scan.isSome then none else some { w with node := w.node.odomReceived lib cfg stamp pose }
  | .cloud stamp elapsed status ready twist =>
    if w.scan.isSome then none
    else
      let r := w.node.cloudReceived lib cfg stamp elapsed status ready twist
      some ⟨r.1, r.2⟩
  | .aligned alignment tf =>
    match w.scan with
    | none => none
    | some scan => some ⟨w.node.cloudAligned lib cfg scan alignment tf, none⟩
  | .timer now tf =>
    if w.scan.isSome || !cfg.enableTimerPublishing then none
    else some { w with node := w.node.timerPublishPose lib cfg now tf }

def World.init (lib : Lib F M) : World F M := ⟨Node.init lib, none⟩

end PclLocalization
