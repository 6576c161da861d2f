import HumanoidNavigation.FastLio.Buffers
import HumanoidNavigation.Transition.Run

/-!
# Runs of the laser mapping node

The node with everything it has received and handed on. The executor runs the callbacks and the
timer one at a time, in any order; of the two LiDAR callbacks it runs the one that the node has
subscribed. The timer calls `sync_packages` and hands each group to the estimator.
-/

namespace FastLio

open Transition CppFloat

variable {F : Type} [CppFloat F]

namespace Lio

variable {cfg : Config F} {s : Lio F}

/-- The scans in `lidar_buffer`, from the oldest to the newest. -/
def scans (s : Lio F) : List ℕ := s.lidarBuffer.map Entry.scan

/-- The scans whose start times are in `time_buffer`. -/
def times (s : Lio F) : List ℕ := s.timeBuffer.map Entry.scan

/-! ### What a scan callback does -/

/-- Scan number `n` arrives with the stamp `time`: `scans` and `times` are in the buffers
afterwards. What `sync_packages` has staged is not touched. -/
structure Received (s t : Lio F) (n : ℕ) (time : F) (scans times : List ℕ) : Prop where
  scanCount : t.scanCount = n
  isFirstLidar : t.isFirstLidar = false
  lastTimestampLidar : t.lastTimestampLidar = time
  scans : t.scans = scans
  times : t.times = times
  imuBuffer : t.imuBuffer = s.imuBuffer
  lastTimestampImu : t.lastTimestampImu = s.lastTimestampImu
  lidarPushed : t.lidarPushed = s.lidarPushed
  lidarEndTime : t.lidarEndTime = s.lidarEndTime
  measures : t.measures = s.measures

/-- The self synchronization only sets the time difference. -/
lemma selfSync_eq (cfg : Config F) (s : Lio F) : ∃ flag diff,
    s.selfSync cfg = { s with timediffSetFlg := flag, timediffLidarWrtImu := diff } := by
  simp only [selfSync]
  split_ifs
  · exact ⟨_, _, rfl⟩
  · exact ⟨_, _, rfl⟩

variable (cfg) in
/-- A scan that `standard_pcl_cbk` accepts is appended to both buffers, from which the oldest one
is dropped when there are more than 100. -/
lemma received_standardPclCbk {msg : PointCloud2}
    (h : s.glitch (getTimeSec msg.stamp) = false) :
    Received s (s.standardPclCbk cfg msg) (s.scanCount + 1) (getTimeSec msg.stamp)
      ((s.scans ++ [s.scanCount + 1]).drop (s.scans.length + 1 - 100))
      ((s.times ++ [s.scanCount + 1]).drop (s.scans.length + 1 - 100)) := by
  have hglitch : Lio.glitch { s with scanCount := s.scanCount + 1 } (getTimeSec msg.stamp)
      = false := h
  simp only [standardPclCbk, hglitch, Bool.false_eq_true, if_false]
  obtain ⟨flag, diff, hsync⟩ := selfSync_eq cfg (leakGuard
    { pushScan { s with scanCount := s.scanCount + 1, isFirstLidar := false } (cfg.process msg)
        (getTimeSec msg.stamp) with lastTimestampLidar := getTimeSec msg.stamp })
  rw [hsync]
  refine ⟨rfl, rfl, rfl, ?_, ?_, rfl, rfl, rfl, rfl, rfl⟩
  · simp [leakGuard, pushScan, scans]
  · simp [leakGuard, pushScan, scans, times]

/-- A scan that `standard_pcl_cbk` rejects is only counted. -/
lemma standardPclCbk_of_glitch {msg : PointCloud2} (h : s.glitch (getTimeSec msg.stamp) = true) :
    s.standardPclCbk cfg msg = { s with scanCount := s.scanCount + 1 } := by
  have hglitch : Lio.glitch { s with scanCount := s.scanCount + 1 } (getTimeSec msg.stamp)
      = true := h
  simp only [standardPclCbk, hglitch, if_true]

variable (cfg s) in
/-- `process_livox_scan` appends to both buffers, of which it has cleared one if the stamp is
before the previous one. -/
lemma received_processLivoxScan (msg : CustomMsg F) :
    Received s (s.processLivoxScan cfg msg) (s.scanCount + 1) (getTimeSec msg.stamp)
      ((if s.loopBack (getTimeSec msg.stamp) then [] else s.scans) ++ [s.scanCount + 1])
      (s.times ++ [s.scanCount + 1]) := by
  have hloop : Lio.loopBack { s with scanCount := s.scanCount + 1 } (getTimeSec msg.stamp)
      = s.loopBack (getTimeSec msg.stamp) := rfl
  simp only [processLivoxScan, hloop]
  cases s.loopBack (getTimeSec msg.stamp) with
  | false =>
    simp only [Bool.false_eq_true, if_false]
    obtain ⟨flag, diff, hsync⟩ := selfSync_eq cfg { s with
      scanCount := s.scanCount + 1
      isFirstLidar := false
      lastTimestampLidar := getTimeSec msg.stamp }
    rw [hsync]
    exact ⟨rfl, rfl, rfl, List.map_append, List.map_append, rfl, rfl, rfl, rfl, rfl⟩
  | true =>
    simp only [if_true]
    obtain ⟨flag, diff, hsync⟩ := selfSync_eq cfg { s with
      lidarBuffer := []
      scanCount := s.scanCount + 1
      isFirstLidar := false
      lastTimestampLidar := getTimeSec msg.stamp }
    rw [hsync]
    exact ⟨rfl, rfl, rfl, rfl, List.map_append, rfl, rfl, rfl, rfl, rfl⟩

/-- Does this packet complete the scan? -/
def completes (cfg : Config F) (s : Lio F) (packet : CustomMsg F) : Bool :=
  complete cfg (s.accumulate packet).1

/-- The stamp of the scan that this packet belongs to, which is that of its first packet. -/
def scanTime (s : Lio F) (packet : CustomMsg F) : F := getTimeSec (s.accumulate packet).1.stamp

/-- A packet that completes the scan hands it on. -/
lemma received_livoxPclCbk {packet : CustomMsg F} (h : s.completes cfg packet = true) :
    Received s (s.livoxPclCbk cfg packet) (s.scanCount + 1) (s.scanTime packet)
      ((if s.loopBack (s.scanTime packet) then [] else s.scans) ++ [s.scanCount + 1])
      (s.times ++ [s.scanCount + 1]) := by
  simp only [completes] at h
  simp only [livoxPclCbk, h, if_true]
  exact { received_processLivoxScan cfg { s with
    livoxScanAccumulator := none
    livoxScanStartTime := (s.accumulate packet).2 } { (s.accumulate packet).1 with
    pointNum := (s.accumulate packet).1.points.length % 2 ^ 32 } with }

/-- A packet that does not complete the scan stays in the accumulator. -/
lemma livoxPclCbk_of_not_completes {packet : CustomMsg F} (h : s.completes cfg packet = false) :
    s.livoxPclCbk cfg packet = { s with
      livoxScanAccumulator := some (s.accumulate packet).1
      livoxScanStartTime := (s.accumulate packet).2 } := by
  simp only [completes] at h
  simp only [livoxPclCbk, h, Bool.false_eq_true, if_false]

variable (cfg) in
/-- Neither callback touches what `sync_packages` has staged. -/
lemma standardPclCbk_staged (msg : PointCloud2) :
    (s.standardPclCbk cfg msg).lidarPushed = s.lidarPushed ∧
      (s.standardPclCbk cfg msg).measures = s.measures := by
  cases hglitch : s.glitch (getTimeSec msg.stamp) with
  | false =>
    have hreceived := received_standardPclCbk cfg hglitch
    exact ⟨hreceived.lidarPushed, hreceived.measures⟩
  | true =>
    rw [standardPclCbk_of_glitch hglitch]
    exact ⟨rfl, rfl⟩

variable (cfg) in
lemma livoxPclCbk_staged (packet : CustomMsg F) :
    (s.livoxPclCbk cfg packet).lidarPushed = s.lidarPushed ∧
      (s.livoxPclCbk cfg packet).measures = s.measures := by
  cases hcomplete : s.completes cfg packet with
  | false =>
    rw [livoxPclCbk_of_not_completes hcomplete]
    exact ⟨rfl, rfl⟩
  | true =>
    have hreceived := received_livoxPclCbk hcomplete
    exact ⟨hreceived.lidarPushed, hreceived.measures⟩

/-! ### What the timer does -/

variable {lidar : Entry (PointCloudXYZI F)} {time : Entry F}

lemma scanEnd_eq (s : Lio F) (lidar : PointCloudXYZI F) (begTime : F) : ∃ num endTime mean,
    s.scanEnd lidar begTime =
      { s with scanNum := num, lidarEndTime := endTime, lidarMeanScantime := mean } := by
  simp only [scanEnd]
  split
  · exact ⟨_, _, _, rfl⟩
  · split_ifs <;> exact ⟨_, _, _, rfl⟩

/-- What the first phase of `sync_packages` leaves alone, and what it stages. -/
structure Staged (s t : Lio F) (lidar : Entry (PointCloudXYZI F)) (time : Entry F) : Prop where
  scanCount : t.scanCount = s.scanCount
  isFirstLidar : t.isFirstLidar = s.isFirstLidar
  lastTimestampLidar : t.lastTimestampLidar = s.lastTimestampLidar
  lidarBuffer : t.lidarBuffer = s.lidarBuffer
  timeBuffer : t.timeBuffer = s.timeBuffer
  livoxScanAccumulator : t.livoxScanAccumulator = s.livoxScanAccumulator
  livoxScanStartTime : t.livoxScanStartTime = s.livoxScanStartTime
  lidarPushed : t.lidarPushed = true
  lidar : t.measures.lidar = if s.lidarPushed then s.measures.lidar else lidar
  lidarBegTime : t.measures.lidarBegTime = if s.lidarPushed then s.measures.lidarBegTime else time

lemma staged_stage (s : Lio F) (lidar : Entry (PointCloudXYZI F)) (time : Entry F) :
    Staged s (s.stage lidar time) lidar time := by
  cases hpushed : s.lidarPushed with
  | true => constructor <;> simp [stage, hpushed]
  | false =>
    obtain ⟨num, endTime, mean, hend⟩ := s.scanEnd_eq lidar.value time.value
    constructor <;> simp [stage, hpushed, hend]

/-- The scan in front, its start time and an IMU message; `sync_packages` does nothing without. -/
def Front (s : Lio F) (lidar : Entry (PointCloudXYZI F)) (time : Entry F) : Prop :=
  ∃ ls ts imu imus, s.lidarBuffer = lidar :: ls ∧ s.timeBuffer = time :: ts ∧
    s.imuBuffer = imu :: imus

/-- The IMU messages have reached the end of the scan that is staged, or that this call
stages. -/
def reached (s : Lio F) (lidar : Entry (PointCloudXYZI F)) (time : Entry F) : Bool :=
  !lt (s.stage lidar time).lastTimestampImu (s.stage lidar time).lidarEndTime

lemma syncPackages_of_not_front (h : ∀ lidar time, ¬s.Front lidar time) :
    s.syncPackages = (s, false) := by
  simp only [syncPackages]
  split
  · next lidar ls time ts imu imus hl ht hi => exact absurd ⟨ls, ts, imu, imus, hl, ht, hi⟩ (h _ _)
  · rfl

lemma syncPackages_of_not_reached (hfront : s.Front lidar time)
    (h : s.reached lidar time = false) : s.syncPackages = (s.stage lidar time, false) := by
  obtain ⟨ls, ts, imu, imus, hl, ht, hi⟩ := hfront
  simp only [reached, Bool.not_eq_false'] at h
  simp only [syncPackages, hl, ht, hi, h, if_true]

/-- A call that returns `true` hands on what is staged, and pops the front of both buffers. -/
lemma syncPackages_of_reached (hfront : s.Front lidar time) (h : s.reached lidar time = true) :
    ∃ taken rest, s.syncPackages = ({ s.stage lidar time with
      measures := { (s.stage lidar time).measures with imu := taken }
      imuBuffer := rest
      lidarBuffer := s.lidarBuffer.tail
      timeBuffer := s.timeBuffer.tail
      lidarPushed := false }, true) := by
  obtain ⟨ls, ts, imu, imus, hl, ht, hi⟩ := hfront
  have hstaged := s.staged_stage lidar time
  simp only [reached, Bool.not_eq_true'] at h
  simp only [syncPackages, hl, ht, hi, h, Bool.false_eq_true, if_false]
  exact ⟨_, _, by rw [hstaged.lidarBuffer, hstaged.timeBuffer, hl, ht]⟩

end Lio

/-! ### The system -/

inductive Event (F : Type) where
  | pointCloud2 (msg : PointCloud2)
  | livoxPacket (packet : CustomMsg F)
  | imu (msg : Imu F)
  | timer
  deriving DecidableEq

/-- The step completes a Livox scan with a stamp before that of the previous one while there are
scans in `lidar_buffer`. -/
def Lio.Clears (cfg : Config F) (s : Lio F) : Event F → Prop
  | .livoxPacket packet => s.completes cfg packet = true ∧
      s.loopBack (s.scanTime packet) = true ∧ s.lidarBuffer ≠ []
  | .pointCloud2 _ | .imu _ | .timer => False

/-- The node and its history: the scans that were put into `lidar_buffer`, those that a LiDAR
callback removed from it again, those that `sync_packages` popped, and the groups that it handed
on. -/
structure World (F : Type) where
  lio : Lio F
  enqueued : List ℕ
  removed : List ℕ
  popped : List ℕ
  groups : List (MeasureGroup F)
  deriving DecidableEq

namespace World

def init : World F := ⟨.init, [], [], [], []⟩

/-- A LiDAR callback took the node to the state `t`. -/
def received (w : World F) (t : Lio F) : World F :=
  { w with
    lio := t
    enqueued := w.enqueued ++ t.scans.filter fun n => n ∉ w.lio.scans
    removed := w.removed ++ w.lio.scans.filter fun n => n ∉ t.scans }

/-- `timer_callback` -/
def timer (w : World F) : World F :=
  match w.lio.syncPackages with
  | (t, false) => { w with lio := t }
  | (t, true) =>
    { w with
      lio := t
      popped := w.popped ++ w.lio.scans.head?.toList
      groups := w.groups ++ [t.measures] }

def step (cfg : Config F) (w : World F) : Event F → Option (World F)
  | .pointCloud2 msg => if cfg.avia then none else some (w.received (w.lio.standardPclCbk cfg msg))
  | .livoxPacket packet =>
    if cfg.avia then some (w.received (w.lio.livoxPclCbk cfg packet)) else none
  | .imu msg => some { w with lio := w.lio.imuCbk cfg msg }
  | .timer => some w.timer

variable {cfg : Config F} {w : World F} {lidar : Entry (PointCloudXYZI F)} {time : Entry F}

lemma timer_of_not_front (h : ∀ lidar time, ¬w.lio.Front lidar time) : w.timer = w := by
  simp only [timer, Lio.syncPackages_of_not_front h]

lemma timer_of_not_reached (hfront : w.lio.Front lidar time)
    (h : w.lio.reached lidar time = false) :
    w.timer = { w with lio := w.lio.stage lidar time } := by
  simp only [timer, Lio.syncPackages_of_not_reached hfront h]

/-- The timer hands on a group: the staged scan with its start time. The fronts of both buffers
are popped. -/
lemma timer_of_reached (hfront : w.lio.Front lidar time) (h : w.lio.reached lidar time = true) :
    ∃ g, g.lidar = (w.lio.stage lidar time).measures.lidar ∧
      g.lidarBegTime = (w.lio.stage lidar time).measures.lidarBegTime ∧
      w.timer.groups = w.groups ++ [g] ∧ w.timer.popped = w.popped ++ [lidar.scan] ∧
      w.timer.enqueued = w.enqueued ∧ w.timer.removed = w.removed ∧
      w.timer.lio.scans = w.lio.scans.tail ∧ w.timer.lio.times = w.lio.times.tail ∧
      w.timer.lio.lidarPushed = false ∧ w.timer.lio.scanCount = w.lio.scanCount := by
  obtain ⟨taken, rest, hsync⟩ := Lio.syncPackages_of_reached hfront h
  have hstaged := w.lio.staged_stage lidar time
  obtain ⟨ls, ts, imu, imus, hl, -⟩ := hfront
  refine ⟨{ (w.lio.stage lidar time).measures with imu := taken }, rfl, rfl, ?_⟩
  rw [timer, hsync]
  refine ⟨rfl, ?_, rfl, rfl, ?_, ?_, rfl, hstaged.scanCount⟩
  · simp [Lio.scans, hl]
  · simp [Lio.scans, List.map_tail]
  · simp [Lio.times, List.map_tail]

end World

/-! ### Messages for concrete runs -/

/-- A Livox packet that is a whole scan. -/
def wholeScan (sec : ℤ) : CustomMsg ℚ where
  stamp := ⟨sec, 0⟩
  pointNum := 4
  points := [⟨0, 0, 0, 0, 0, 0, 0⟩, ⟨1, 1, 0, 0, 0, 0, 0⟩, ⟨2, 2, 0, 0, 0, 0, 0⟩,
    ⟨10 ^ 8, 3, 0, 0, 0, 0, 0⟩]

/-- A scan of a PointCloud2 driver, of which no point is kept. -/
def cloudAt (sec : ℤ) : PointCloud2 := ⟨⟨sec, 0⟩, []⟩

/-- An IMU message at rest. -/
def imuAt (sec : ℤ) : Imu ℚ := ⟨⟨sec, 0⟩, ⟨0, 0, 0⟩, ⟨0, 0, 981 / 100⟩⟩

end FastLio
