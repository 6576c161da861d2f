import HumanoidNavigation.Numeric.CppFloat
import HumanoidNavigation.Ros.Messages

/-!
# The buffers of the laser mapping node

`laserMapping.cpp` buffers LiDAR scans and IMU messages until `sync_packages` can put together a
group of one scan and the IMU messages of its duration. The node subscribes to one of two kinds of
LiDAR messages: `standard_pcl_cbk` receives whole scans, `livox_pcl_cbk` accumulates packets and
hands complete scans to `process_livox_scan`. Both decide by the stamps what to do with a message
that is not in order.

The callbacks and the timer run in a single-threaded executor, so each is one step. A scan in a
buffer carries the value of `scan_count` at which it was received, so that the two buffers can be
compared; the node itself does not look at it.
-/

namespace FastLio

open CppFloat

variable {F : Type}

/-! ### Messages -/

/-- A point of a cloud; `curvature` is its time in milliseconds since the start of the scan. -/
structure PointXYZI (F : Type) where
  x : F
  y : F
  z : F
  intensity : F
  curvature : F
  deriving DecidableEq

abbrev PointCloudXYZI (F : Type) := List (PointXYZI F)

/-- A `sensor_msgs/PointCloud2`, the bytes of which `Preprocess` decodes. -/
structure PointCloud2 where
  stamp : Ros.Stamp
  data : List UInt8
  deriving DecidableEq

/-- A point of a Livox packet; `offsetTime` is in nanoseconds since the stamp. -/
structure CustomPoint (F : Type) where
  offsetTime : ℕ
  x : F
  y : F
  z : F
  reflectivity : UInt8
  tag : UInt8
  line : UInt8
  deriving DecidableEq

/-- A `livox_ros_driver2/CustomMsg`. -/
structure CustomMsg (F : Type) where
  stamp : Ros.Stamp
  pointNum : ℕ
  points : List (CustomPoint F)
  deriving DecidableEq

/-- A `sensor_msgs/Imu`. -/
structure Imu (F : Type) where
  stamp : Ros.Stamp
  angularVelocity : Ros.Vector3 F
  linearAcceleration : Ros.Vector3 F
  deriving DecidableEq

/-- A value of a buffer and the scan that it comes from. -/
structure Entry (α : Type) where
  scan : ℕ
  value : α
  deriving DecidableEq

/-- One scan and the IMU messages that go with it. -/
structure MeasureGroup (F : Type) where
  lidar : Entry (PointCloudXYZI F)
  lidarBegTime : Entry F
  lidarEndTime : F
  imu : List (Imu F)
  deriving DecidableEq

/-! ### The node -/

/-- The parameters of the node. `process` and `processLivox` are the two overloads of
`Preprocess::process`. -/
structure Config (F : Type) where
  /-- `lidar_type == AVIA` -/
  avia : Bool
  timeSyncEn : Bool
  timeDiffLidarToImu : F
  scanRate : ℤ
  process : PointCloud2 → PointCloudXYZI F
  processLivox : CustomMsg F → PointCloudXYZI F

/-- The global variables of the node. -/
structure Lio (F : Type) where
  scanCount : ℕ
  isFirstLidar : Bool
  lastTimestampLidar : F
  lastTimestampImu : F
  timediffSetFlg : Bool
  timediffLidarWrtImu : F
  lidarBuffer : List (Entry (PointCloudXYZI F))
  timeBuffer : List (Entry F)
  imuBuffer : List (Imu F)
  livoxScanAccumulator : Option (CustomMsg F)
  livoxScanStartTime : F
  lidarPushed : Bool
  lidarEndTime : F
  lidarMeanScantime : F
  scanNum : ℕ
  measures : MeasureGroup F
  deriving DecidableEq

variable [CppFloat F]

/-- `get_time_sec` -/
def getTimeSec (stamp : Ros.Stamp) : F :=
  lit (stamp.sec * 10 ^ 9 + stamp.nanosec) / lit (10 ^ 9)

/-- `get_ros_time` -/
def getRosTime (timestamp : F) : Ros.Stamp where
  sec := floor timestamp
  nanosec := truncate ((timestamp - lit (floor timestamp)) * lit (10 ^ 9))

/-! ### Decoding Livox scans -/

/-- The loop of `Preprocess::avia_handler` without feature extraction; `previous` is the entry of
`pl_full` before this point. -/
def aviaLoop (nScans pointFilterNum : ℕ) (blind : F) :
    PointXYZI F → ℕ → List (CustomPoint F) → PointCloudXYZI F
  | _, _, [] => []
  | previous, validNum, point :: points =>
    let skipped := ⟨lit 0, lit 0, lit 0, lit 0, lit 0⟩
    if decide (point.line.toNat < nScans) &&
        (point.tag &&& 0x30 == 0x10 || point.tag &&& 0x30 == 0x00) then
      let validNum := validNum + 1
      if validNum % pointFilterNum = 0 then
        let full : PointXYZI F :=
          ⟨point.x, point.y, point.z, lit point.reflectivity.toNat,
            lit point.offsetTime / lit 1000000⟩
        let moved := lt (lit (1 / 10 ^ 7)) (abs (full.x - previous.x)) ||
          lt (lit (1 / 10 ^ 7)) (abs (full.y - previous.y)) ||
          lt (lit (1 / 10 ^ 7)) (abs (full.z - previous.z))
        let rest := aviaLoop nScans pointFilterNum blind full validNum points
        if moved &&
            lt (blind * blind) (full.x * full.x + full.y * full.y + full.z * full.z) then
          full :: rest
        else rest
      else aviaLoop nScans pointFilterNum blind skipped validNum points
    else aviaLoop nScans pointFilterNum blind skipped validNum points

/-- `Preprocess::avia_handler` without feature extraction. It looks at `point_num` points, from the
second one on. -/
def aviaHandler (nScans pointFilterNum : ℕ) (blind : F) (msg : CustomMsg F) :
    PointCloudXYZI F :=
  aviaLoop nScans pointFilterNum blind ⟨lit 0, lit 0, lit 0, lit 0, lit 0⟩ 0
    (msg.points.take msg.pointNum).tail

/-- The parameters of `mid360.yaml`. -/
def Config.mid360 (process : PointCloud2 → PointCloudXYZI F) : Config F where
  avia := true
  timeSyncEn := false
  timeDiffLidarToImu := lit 0
  scanRate := 10
  process := process
  processLivox := aviaHandler 4 3 (lit (1 / 2))

/-- The parameters of `velodyne.yaml`. -/
def Config.velodyne (process : PointCloud2 → PointCloudXYZI F) : Config F where
  avia := false
  timeSyncEn := false
  timeDiffLidarToImu := lit 0
  scanRate := 10
  process := process
  processLivox := aviaHandler 32 4 (lit 2)

namespace Lio

def init : Lio F where
  scanCount := 0
  isFirstLidar := true
  lastTimestampLidar := lit 0
  lastTimestampImu := lit (-1)
  timediffSetFlg := false
  timediffLidarWrtImu := lit 0
  lidarBuffer := []
  timeBuffer := []
  imuBuffer := []
  livoxScanAccumulator := none
  livoxScanStartTime := lit 0
  lidarPushed := false
  lidarEndTime := lit 0
  lidarMeanScantime := lit 0
  scanNum := 0
  measures := ⟨⟨0, []⟩, ⟨0, lit 0⟩, lit 0, []⟩

/-! ### Receiving scans -/

/-- The self synchronization of both LiDAR callbacks. -/
def selfSync (cfg : Config F) (s : Lio F) : Lio F :=
  if cfg.timeSyncEn && !s.timediffSetFlg &&
      lt (lit 1) (abs (s.lastTimestampLidar - s.lastTimestampImu)) && !s.imuBuffer.isEmpty then
    { s with
      timediffSetFlg := true
      timediffLidarWrtImu := s.lastTimestampLidar + lit (1 / 10) - s.lastTimestampImu }
  else s

/-- Append a scan to `lidar_buffer` and its stamp to `time_buffer`. -/
def pushScan (s : Lio F) (ptr : PointCloudXYZI F) (time : F) : Lio F :=
  { s with
    lidarBuffer := s.lidarBuffer ++ [⟨s.scanCount, ptr⟩]
    timeBuffer := s.timeBuffer ++ [⟨s.scanCount, time⟩] }

/-- The leak guard: `while (lidar_buffer.size() > 100)` pop the front of both buffers. -/
def leakGuard (s : Lio F) : Lio F :=
  { s with
    lidarBuffer := s.lidarBuffer.drop (s.lidarBuffer.length - 100)
    timeBuffer := s.timeBuffer.drop (s.lidarBuffer.length - 100) }

/-- The stamp is before the previous one, or more than five seconds after it. -/
def glitch (s : Lio F) (curTime : F) : Bool :=
  !s.isFirstLidar &&
    (lt curTime s.lastTimestampLidar || lt (s.lastTimestampLidar + lit 5) curTime)

/-- `standard_pcl_cbk` -/
def standardPclCbk (cfg : Config F) (s : Lio F) (msg : PointCloud2) : Lio F :=
  let s := { s with scanCount := s.scanCount + 1 }
  let curTime := getTimeSec msg.stamp
  if s.glitch curTime then s
  else
    selfSync cfg <| leakGuard
      { pushScan { s with isFirstLidar := false } (cfg.process msg) curTime with
        lastTimestampLidar := curTime }

/-- The loop-back branch of `process_livox_scan`. -/
def loopBack (s : Lio F) (curTime : F) : Bool :=
  !s.isFirstLidar && lt curTime s.lastTimestampLidar

/-- `process_livox_scan` -/
def processLivoxScan (cfg : Config F) (s : Lio F) (msg : CustomMsg F) : Lio F :=
  let curTime := getTimeSec msg.stamp
  let s := { s with scanCount := s.scanCount + 1 }
  let s := if s.loopBack curTime then { s with lidarBuffer := [] } else s
  let s := selfSync cfg { s with isFirstLidar := false, lastTimestampLidar := curTime }
  s.pushScan (cfg.processLivox msg) s.lastTimestampLidar

/-! ### Accumulating packets -/

/-- Does a packet with this stamp begin a new scan? -/
def beginsScan (s : Lio F) (packetTime : F) : Bool :=
  s.livoxScanAccumulator.isNone || lt packetTime s.livoxScanStartTime ||
    lt (lit 1) (packetTime - s.livoxScanStartTime)

/-- The points of a packet with their times counted from the start of the scan; points that are
too late for 32 bits are left out. -/
def adjustPoints (packetOffsetNs : ℕ) (points : List (CustomPoint F)) : List (CustomPoint F) :=
  points.filterMap fun point =>
    let offsetNs := packetOffsetNs + point.offsetTime
    if offsetNs ≤ 2 ^ 32 - 1 then some { point with offsetTime := offsetNs } else none

/-- `livox_scan_start_time` once a packet with this stamp has begun its scan. -/
def scanStart (s : Lio F) (packetTime : F) : F :=
  if s.beginsScan packetTime then packetTime else s.livoxScanStartTime

/-- `packet_offset_ns` -/
def packetOffsetNs (s : Lio F) (packetTime : F) : ℕ :=
  truncate (max (lit 0) (packetTime - s.scanStart packetTime) * lit (10 ^ 9))

/-- The accumulator and its start time after a packet. -/
def accumulate (s : Lio F) (packet : CustomMsg F) : CustomMsg F × F :=
  let packetTime : F := getTimeSec packet.stamp
  let accumulator := match s.livoxScanAccumulator, s.beginsScan packetTime with
    | some accumulator, false => accumulator
    | _, _ => { packet with points := [] }
  ({ accumulator with
      points :=
        accumulator.points ++ adjustPoints (s.packetOffsetNs packetTime) packet.points },
    s.scanStart packetTime)

/-- The duration of the accumulated scan, up to its last point. -/
def accumulatedDuration (accumulator : CustomMsg F) : F :=
  match accumulator.points.getLast? with
  | none => lit 0
  | some point => lit point.offsetTime * lit (1 / 10 ^ 9)

/-- Is the accumulated scan as long as a scan should be? -/
def complete (cfg : Config F) (accumulator : CustomMsg F) : Bool :=
  !lt (accumulatedDuration accumulator) (lit 1 / lit (Max.max 1 cfg.scanRate))

/-- `livox_pcl_cbk` -/
def livoxPclCbk (cfg : Config F) (s : Lio F) (packet : CustomMsg F) : Lio F :=
  let a := s.accumulate packet
  if complete cfg a.1 then
    processLivoxScan cfg { s with livoxScanAccumulator := none, livoxScanStartTime := a.2 }
      { a.1 with pointNum := a.1.points.length % 2 ^ 32 }
  else { s with livoxScanAccumulator := some a.1, livoxScanStartTime := a.2 }

/-! ### IMU messages -/

/-- The stamp of an IMU message on the clock of the LiDAR. -/
def imuStamp (cfg : Config F) (s : Lio F) (msg : Imu F) : Ros.Stamp :=
  if lt (lit (1 / 10)) (abs s.timediffLidarWrtImu) && cfg.timeSyncEn then
    getRosTime (s.timediffLidarWrtImu + getTimeSec msg.stamp)
  else getRosTime (getTimeSec msg.stamp - cfg.timeDiffLidarToImu)

/-- `imu_cbk` -/
def imuCbk (cfg : Config F) (s : Lio F) (msg : Imu F) : Lio F :=
  let msg := { msg with stamp := s.imuStamp cfg msg }
  let timestamp : F := getTimeSec msg.stamp
  let imuBuffer := if lt timestamp s.lastTimestampImu then [] else s.imuBuffer
  let imuBuffer := imuBuffer ++ [msg]
  { s with
    lastTimestampImu := timestamp
    imuBuffer := imuBuffer.drop (imuBuffer.length - 2000) }

/-! ### Synchronization -/

/-- The end of the scan in front, and the running mean of the durations of the scans. -/
def scanEnd (s : Lio F) (lidar : PointCloudXYZI F) (begTime : F) : Lio F :=
  match lidar.getLast? with
  | none => { s with lidarEndTime := begTime + s.lidarMeanScantime }
  | some point =>
    let duration := point.curvature / lit 1000
    if lidar.length ≤ 1 then { s with lidarEndTime := begTime + s.lidarMeanScantime }
    else if lt duration (lit (1 / 2) * s.lidarMeanScantime) then
      { s with lidarEndTime := begTime + s.lidarMeanScantime }
    else if lt (lit 1) duration then { s with lidarEndTime := begTime + s.lidarMeanScantime }
    else
      { s with
        scanNum := s.scanNum + 1
        lidarEndTime := begTime + duration
        lidarMeanScantime :=
          s.lidarMeanScantime + (duration - s.lidarMeanScantime) / lit (s.scanNum + 1) }

/-- The first phase of `sync_packages`: unless a scan was staged by an earlier call, stage the
front of the buffers. -/
def stage (s : Lio F) (lidar : Entry (PointCloudXYZI F)) (time : Entry F) : Lio F :=
  if s.lidarPushed then s
  else
    let s := s.scanEnd lidar.value time.value
    { s with
      measures :=
        { s.measures with lidar := lidar, lidarBegTime := time, lidarEndTime := s.lidarEndTime }
      lidarPushed := true }

/-- The loop that moves IMU messages into the group; `imuTime` is the loop variable. -/
def takeImu (lidarEndTime imuTime : F) : List (Imu F) → List (Imu F) × List (Imu F)
  | [] => ([], [])
  | msg :: rest =>
    if lt imuTime lidarEndTime then
      let imuTime : F := getTimeSec msg.stamp
      if lt lidarEndTime imuTime then ([], msg :: rest)
      else
        let r := takeImu lidarEndTime imuTime rest
        (msg :: r.1, r.2)
    else ([], msg :: rest)

/-- `sync_packages`, with its result. The two LiDAR buffers are read together, and the first is
never longer than the second. -/
def syncPackages (s : Lio F) : Lio F × Bool :=
  match s.lidarBuffer, s.timeBuffer, s.imuBuffer with
  | lidar :: _, time :: _, imu :: _ =>
    let s := s.stage lidar time
    if lt s.lastTimestampImu s.lidarEndTime then (s, false)
    else
      let taken := takeImu s.lidarEndTime (getTimeSec imu.stamp) s.imuBuffer
      ({ s with
          measures := { s.measures with imu := taken.1 }
          imuBuffer := taken.2
          lidarBuffer := s.lidarBuffer.tail
          timeBuffer := s.timeBuffer.tail
          lidarPushed := false }, true)
  | _, _, _ => (s, false)

end Lio
end FastLio
