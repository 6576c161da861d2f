import HumanoidNavigation.IkdTree.Tree
import HumanoidNavigation.Search.Sweep
import HumanoidNavigation.Transition.Run
import Mathlib.Algebra.BigOperators.Group.List.Basic
import Mathlib.Algebra.Module.Defs
import Mathlib.Algebra.Order.Field.Basic
import Mathlib.Tactic.Linarith
import Mathlib.Tactic.Module

/-!
# The IMU process

`ImuProcess` averages the first IMU messages. From then on it propagates the filter through the
messages of each group to the end of the scan and moves the points of the scan to that time.

The average is the exact one, `mean_of_run`. The filter is propagated by the time that passes from
one scan to the next as long as the messages of each group reach beyond the end of the scan before,
`propagated_of_run`. Every point but the first is compensated at most once, `undistorted_cloud`: the
loop over the points never leaves the first one, which it compensates again at every earlier pose.
-/

namespace ImuProcessing

open Transition

attribute [local instance] IkdTree.atLeastTwo_two

variable {K V R : Type*}

structure Imu (K V : Type*) where
  stamp : K
  angularVelocity : V
  linearAcceleration : V

structure PointType (K V : Type*) where
  /-- the time since the start of the scan in milliseconds -/
  curvature : K
  position : V
  deriving DecidableEq

structure MeasureGroup (K V : Type*) where
  lidarBegTime : K
  lidarEndTime : K
  lidar : List (PointType K V)
  imu : List (Imu K V)

structure StateIkfom (V R : Type*) where
  pos : V
  rot : R
  offsetRLI : R
  offsetTLI : V
  vel : V
  bg : V
  ba : V
  grav : V

structure InputIkfom (V : Type*) where
  acc : V
  gyro : V

structure Pose6D (K V R : Type*) where
  offsetTime : K
  acc : V
  gyr : V
  vel : V
  pos : V
  rot : R

/-- The functions of the toolkit and of the standard library that the code calls. `std::sort` may
leave points of the same time in any order. -/
structure Toolkit (K V R : Type*) [LinearOrder K] where
  predict : K → InputIkfom V → StateIkfom V R → StateIkfom V R
  exp : V → K → R
  norm : V → K
  s2 : V → V
  sort : List (PointType K V) → List (PointType K V)
  sort_perm : ∀ points, (sort points).Perm points
  sort_sorted : ∀ points, (sort points).Pairwise fun x y => x.curvature ≤ y.curvature

structure ImuProcess (K V R : Type*) where
  lidarTWrtImu : V
  lidarRWrtImu : R
  bFirstFrame : Bool
  imuNeedInit : Bool
  initIterNum : ℕ
  meanAcc : V
  meanGyr : V
  lastImu : Imu K V
  /-- no constructor sets it -/
  lastLidarEndTime : K
  angvelLast : V
  accSLast : V

def maxIniCount : ℕ := 10

section

variable [Field K] [LinearOrder K] [AddCommGroup V] [Module K V] [Group R] [DistribMulAction R V]

/-- `G_m_s2`. -/
def gMS2 : K := 981 / 100

namespace ImuProcess

/-! ### IMU_init -/

/-- The body of the loop of `IMU_init`. -/
def sample (s : ImuProcess K V R) (imu : Imu K V) : ImuProcess K V R :=
  { s with
    meanAcc := s.meanAcc + (s.initIterNum : K)⁻¹ • (imu.linearAcceleration - s.meanAcc)
    meanGyr := s.meanGyr + (s.initIterNum : K)⁻¹ • (imu.angularVelocity - s.meanGyr)
    initIterNum := s.initIterNum + 1 }

/-- What the first call of `IMU_init` does before the loop, `Reset` included. -/
def firstFrame (front : Imu K V) (s : ImuProcess K V R) : ImuProcess K V R :=
  { s with
    angvelLast := 0
    imuNeedInit := true
    initIterNum := 1
    bFirstFrame := false
    meanAcc := front.linearAcceleration
    meanGyr := front.angularVelocity }

/-- `IMU_init` on the messages `front :: rest`. -/
def imuInit (c : Toolkit K V R) (front : Imu K V) (rest : List (Imu K V)) (s : ImuProcess K V R)
    (kf : StateIkfom V R) : ImuProcess K V R × StateIkfom V R :=
  let s := if s.bFirstFrame then s.firstFrame front else s
  let s := (front :: rest).foldl sample s
  ({ s with lastImu := (front :: rest).getLastD front },
    { kf with
      grav := c.s2 (-((gMS2 / c.norm s.meanAcc) • s.meanAcc))
      bg := s.meanGyr
      offsetTLI := s.lidarTWrtImu
      offsetRLI := s.lidarRWrtImu })

/-! ### UndistortPcl -/

/-- The variables of the loop over the IMU messages, with the poses from the latest on and the
times by which the filter has been propagated. -/
structure Forward (K V R : Type*) where
  kf : StateIkfom V R
  angvelLast : V
  accSLast : V
  input : InputIkfom V
  imuPose : List (Pose6D K V R)
  dts : List K

/-- The body of the loop. -/
def propagate (c : Toolkit K V R) (s : ImuProcess K V R) (pclBegTime : K) (w : Forward K V R)
    (head tail : Imu K V) : Forward K V R :=
  if tail.stamp < s.lastLidarEndTime then w
  else
    let angvelAvr := (1 / 2 : K) • (head.angularVelocity + tail.angularVelocity)
    let accAvr := (gMS2 / c.norm s.meanAcc) •
      (1 / 2 : K) • (head.linearAcceleration + tail.linearAcceleration)
    let dt := if head.stamp < s.lastLidarEndTime then tail.stamp - s.lastLidarEndTime
      else tail.stamp - head.stamp
    let kf := c.predict dt ⟨accAvr, angvelAvr⟩ w.kf
    let angvelLast := angvelAvr - kf.bg
    let accSLast := kf.rot • (accAvr - kf.ba) + kf.grav
    { kf
      angvelLast
      accSLast
      input := ⟨accAvr, angvelAvr⟩
      imuPose :=
        ⟨tail.stamp - pclBegTime, accSLast, angvelLast, kf.vel, kf.pos, kf.rot⟩ :: w.imuPose
      dts := w.dts ++ [dt] }

/-- The loop over `v_imu`, of which `head` is the first message. -/
def forward (c : Toolkit K V R) (s : ImuProcess K V R) (pclBegTime : K) :
    Forward K V R → Imu K V → List (Imu K V) → Forward K V R
  | w, _, [] => w
  | w, head, tail :: rest => forward c s pclBegTime (s.propagate c pclBegTime w head tail) tail rest

/-- Is the point to be compensated between the poses `tail` and `head`? -/
def isLate (segment : Pose6D K V R × Pose6D K V R) (p : PointType K V) : Bool :=
  decide (p.curvature / 1000 > segment.2.offsetTime)

/-- The point at the end of the scan. -/
def compensate (c : Toolkit K V R) (imuState : StateIkfom V R)
    (segment : Pose6D K V R × Pose6D K V R) (p : PointType K V) : PointType K V :=
  let tail := segment.1
  let head := segment.2
  let dt := p.curvature / 1000 - head.offsetTime
  let rI := head.rot * c.exp tail.gyr dt
  let tEi := head.pos + dt • head.vel + (1 / 2 * dt * dt) • tail.acc - imuState.pos
  { p with
    position := imuState.offsetRLI⁻¹ •
      (imuState.rot⁻¹ • (rI • (imuState.offsetRLI • p.position + imuState.offsetTLI) + tEi) -
        imuState.offsetTLI) }

/-- The outcome of `UndistortPcl`. -/
structure Undistorted (K V R : Type*) where
  process : ImuProcess K V R
  kf : StateIkfom V R
  pclOut : List (PointType K V)
  /-- the pairs of successive poses, from the latest on -/
  segments : List (Pose6D K V R × Pose6D K V R)
  dts : List K

/-- `UndistortPcl` with the IMU messages `front :: rest`. -/
def undistortPcl (c : Toolkit K V R) (meas : MeasureGroup K V) (front : Imu K V)
    (rest : List (Imu K V)) (s : ImuProcess K V R) (kf : StateIkfom V R) : Undistorted K V R :=
  let back := (front :: rest).getLastD front
  let w := s.forward c meas.lidarBegTime
    { kf
      angvelLast := s.angvelLast
      accSLast := s.accSLast
      input := ⟨0, 0⟩
      imuPose := [⟨0, s.accSLast, s.angvelLast, kf.vel, kf.pos, kf.rot⟩]
      dts := [] } s.lastImu (front :: rest)
  let note : K := if meas.lidarEndTime > back.stamp then 1 else -1
  let dt := note * (meas.lidarEndTime - back.stamp)
  let imuState := c.predict dt w.input w.kf
  let segments := w.imuPose.zip w.imuPose.tail
  { process := { s with
      lastImu := back
      lastLidarEndTime := meas.lidarEndTime
      angvelLast := w.angvelLast
      accSLast := w.accSLast }
    kf := imuState
    pclOut :=
      (Sweep.sweep isLate (compensate c imuState) segments (c.sort meas.lidar).reverse).reverse
    segments
    dts := w.dts ++ [dt] }

end ImuProcess

/-! ### Process -/

/-- The process and the filter, with what they have done: the messages that have been averaged, the
time by which the filter has been propagated and the clouds that have been put out. -/
structure World (K V R : Type*) where
  process : ImuProcess K V R
  kf : StateIkfom V R
  averaged : List (Imu K V)
  propagated : K
  clouds : List (List (PointType K V))

/-- `Process`. -/
def World.step (c : Toolkit K V R) (w : World K V R) (meas : MeasureGroup K V) :
    Option (World K V R) :=
  match meas.imu with
  | [] => some w
  | front :: rest =>
    if w.process.imuNeedInit then
      let r := w.process.imuInit c front rest w.kf
      some { w with
        process := { r.1 with imuNeedInit := !decide (r.1.initIterNum > maxIniCount) }
        kf := r.2
        averaged := w.averaged ++ front :: rest }
    else
      let r := w.process.undistortPcl c meas front rest w.kf
      some { w with
        process := r.process
        kf := r.kf
        propagated := w.propagated + r.dts.sum
        clouds := w.clouds ++ [r.pclOut] }

/-! ### A motion on a line -/

/-- No rotation. -/
def Toolkit.translating {V : Type*} [AddCommGroup V] [Module ℚ V] (norm : V → ℚ) :
    Toolkit ℚ V ℤˣ where
  predict dt u x := { x with
    pos := x.pos + dt • x.vel
    vel := x.vel + dt • (u.acc - x.ba + x.grav) }
  exp _ _ := 1
  norm := norm
  s2 := id
  sort := List.insertionSort fun x y => x.curvature ≤ y.curvature
  sort_perm points := List.perm_insertionSort _ points
  sort_sorted points :=
    have : Std.Total fun x y : PointType ℚ V => x.curvature ≤ y.curvature :=
      ⟨fun x y => le_total x.curvature y.curvature⟩
    have : IsTrans (PointType ℚ V) fun x y => x.curvature ≤ y.curvature :=
      ⟨fun _ _ _ => le_trans⟩
    List.pairwise_insertionSort _ points

def Toolkit.line : Toolkit ℚ ℚ ℤˣ := .translating abs

/-- A scan over two seconds with a message at the end of each. -/
def MeasureGroup.scan : MeasureGroup ℚ ℚ where
  lidarBegTime := 0
  lidarEndTime := 2
  lidar := [⟨1500, 7⟩, ⟨500, 5⟩]
  imu := [⟨1, 0, 9⟩, ⟨2, 0, 11⟩]

/-- A scan with two points at its start and one after its only message. -/
def MeasureGroup.sparse : MeasureGroup ℚ ℚ where
  lidarBegTime := 0
  lidarEndTime := 2
  lidar := [⟨1500, 7⟩, ⟨0, 3⟩, ⟨500, 5⟩, ⟨0, 4⟩]
  imu := [⟨1, 0, 9⟩]

def ImuProcess.running : ImuProcess ℚ ℚ ℤˣ where
  lidarTWrtImu := 0
  lidarRWrtImu := 1
  bFirstFrame := false
  imuNeedInit := false
  initIterNum := 11
  meanAcc := 10
  meanGyr := 0
  lastImu := ⟨-1, 0, 10⟩
  lastLidarEndTime := 0
  angvelLast := 0
  accSLast := 0

def StateIkfom.atOrigin : StateIkfom ℚ ℤˣ := ⟨0, 1, 1, 0, 3, 0, 0, -10⟩

/-- The process after its first messages. -/
def World.onLine : World ℚ ℚ ℤˣ where
  process := .running
  kf := .atOrigin
  averaged := []
  propagated := 0
  clouds := []

/-- The process before its first message. -/
def World.started : World ℚ ℚ ℤˣ where
  process := { ImuProcess.running with bFirstFrame := true, imuNeedInit := true, initIterNum := 1 }
  kf := .atOrigin
  averaged := []
  propagated := 0
  clouds := []

namespace ImuProcess

variable {c : Toolkit K V R} {s s' : ImuProcess K V R} {meas : MeasureGroup K V}
  {kf kf' : StateIkfom V R} {front head tail : Imu K V} {rest msgs : List (Imu K V)}
  {r : Undistorted K V R}

/-! ### The points of a scan -/

section Cloud

variable {x y p : PointType K V} {points : List (PointType K V)}
  {segment : Pose6D K V R × Pose6D K V R}

/-- Where a point that the LiDAR sees is in the world, for a pose of the IMU. -/
def toWorld (imuState : StateIkfom V R) (pose : V × R) (position : V) : V :=
  pose.2 • (imuState.offsetRLI • position + imuState.offsetTLI) + pose.1

/-- The pose at the time of the point, from `head` on with the acceleration and the angular velocity
of `tail`. -/
def poseAt (c : Toolkit K V R) (segment : Pose6D K V R × Pose6D K V R) (p : PointType K V) :
    V × R :=
  let tail := segment.1
  let head := segment.2
  let dt := p.curvature / 1000 - head.offsetTime
  (head.pos + dt • head.vel + (1 / 2 * dt * dt) • tail.acc, head.rot * c.exp tail.gyr dt)

/-- From the pose at the end of the scan a compensated point is where it was from the pose at its
time. -/
lemma toWorld_compensate (c : Toolkit K V R) (imuState : StateIkfom V R)
    (segment : Pose6D K V R × Pose6D K V R) (p : PointType K V) :
    toWorld imuState (imuState.pos, imuState.rot) (compensate c imuState segment p).position =
      toWorld imuState (poseAt c segment p) p.position := by
  simp only [toWorld, compensate, poseAt, smul_inv_smul, sub_add_cancel]
  abel

/-- The time of a point stays. -/
lemma isLate_compensate (segment segment' : Pose6D K V R × Pose6D K V R) (p : PointType K V) :
    isLate segment' (compensate c kf segment p) = isLate segment' p := rfl

lemma pclOut_eq (hr : s.undistortPcl c meas front rest kf = r) :
    r.pclOut =
      (Sweep.sweep isLate (compensate c r.kf) r.segments (c.sort meas.lidar).reverse).reverse := by
  subst hr
  rfl

variable [IsStrictOrderedRing K]

omit [Group R] [DistribMulAction R V] [AddCommGroup V] [Module K V] in
lemma isLate_of_le (h : x.curvature ≤ y.curvature) (hx : isLate segment x = true) :
    isLate segment y = true := by
  simp only [isLate, decide_eq_true_eq] at hx ⊢
  exact hx.trans_le (div_le_div_of_nonneg_right h (by norm_num))

/-- Every point but the first is compensated at one pose, the latest before it among those that
another one follows, and so is where it was seen at its time; a point that none of them precedes
stays as it is. The first is compensated at all of these poses before it. -/
theorem undistorted_cloud (hr : s.undistortPcl c meas front rest kf = r)
    (hsort : c.sort meas.lidar = p :: points) :
    r.pclOut = Sweep.again isLate (compensate c r.kf) r.segments p ::
        points.map (Sweep.once isLate (compensate c r.kf) r.segments) ∧
      ∀ x ∈ points,
        (∃ segment, Sweep.First isLate r.segments x segment ∧
          toWorld r.kf (r.kf.pos, r.kf.rot)
              (Sweep.once isLate (compensate c r.kf) r.segments x).position =
            toWorld r.kf (poseAt c segment x) x.position) ∨
        (∀ segment ∈ r.segments, isLate segment x = false) ∧
          Sweep.once isLate (compensate c r.kf) r.segments x = x := by
  have hpair : (points.reverse ++ [p]).Pairwise fun x y => y.curvature ≤ x.curvature := by
    rw [← List.reverse_cons, ← hsort, List.pairwise_reverse]
    exact c.sort_sorted meas.lidar
  have hlate : (points.reverse ++ [p]).Pairwise fun x y =>
      ∀ segment : Pose6D K V R × Pose6D K V R, isLate segment y → isLate segment x :=
    hpair.imp fun h segment => isLate_of_le h
  constructor
  · rw [pclOut_eq hr, hsort, List.reverse_cons, Sweep.sweep_concat isLate_compensate hlate]
    simp
  · intro x _
    refine (Sweep.once_cases isLate (compensate c r.kf) r.segments x).imp ?_ id
    rintro ⟨segment, hfirst, honce⟩
    refine ⟨segment, hfirst, ?_⟩
    rw [honce]
    exact toWorld_compensate c r.kf segment x

theorem undistorted_cloud_sparse :
    let r := running.undistortPcl .line .sparse ⟨1, 0, 9⟩ [] .atOrigin
    r.pclOut = Sweep.again isLate (compensate .line r.kf) r.segments ⟨0, 3⟩ ::
        [⟨0, 4⟩, ⟨500, 5⟩, ⟨1500, 7⟩].map
          (Sweep.once isLate (compensate .line r.kf) r.segments) ∧
      ∀ x ∈ [(⟨0, 4⟩ : PointType ℚ ℚ), ⟨500, 5⟩, ⟨1500, 7⟩],
        (∃ segment, Sweep.First isLate r.segments x segment ∧
          toWorld r.kf (r.kf.pos, r.kf.rot)
              (Sweep.once isLate (compensate .line r.kf) r.segments x).position =
            toWorld r.kf (poseAt .line segment x) x.position) ∨
        (∀ segment ∈ r.segments, isLate segment x = false) ∧
          Sweep.once isLate (compensate .line r.kf) r.segments x = x := by
  have hsort : Toolkit.line.sort MeasureGroup.sparse.lidar =
      [⟨0, 3⟩, ⟨0, 4⟩, ⟨500, 5⟩, ⟨1500, 7⟩] := by
    decide +kernel
  exact undistorted_cloud rfl hsort

end Cloud

/-! ### The time of the filter -/

section Clock

variable {w : Forward K V R} {beg : K}

lemma sum_dts_propagate (h : head.stamp ≤ tail.stamp) :
    (s.propagate c beg w head tail).dts.sum =
      w.dts.sum + (max s.lastLidarEndTime tail.stamp - max s.lastLidarEndTime head.stamp) := by
  unfold propagate
  split_ifs with htail hhead
  · rw [max_eq_left htail.le, max_eq_left (h.trans htail.le), sub_self, add_zero]
  · rw [max_eq_right (not_lt.mp htail), max_eq_left hhead.le, List.sum_append, List.sum_singleton]
  · rw [max_eq_right (not_lt.mp htail), max_eq_right (not_lt.mp hhead), List.sum_append,
      List.sum_singleton]

lemma sum_dts_forward (h : (head :: rest).IsChain fun x y => x.stamp ≤ y.stamp) :
    (s.forward c beg w head rest).dts.sum =
      w.dts.sum + (max s.lastLidarEndTime (rest.getLastD head).stamp -
        max s.lastLidarEndTime head.stamp) := by
  induction rest generalizing w head with
  | nil => simp [forward]
  | cons tail rest ih =>
    obtain ⟨hhead, hrest⟩ := List.isChain_cons_cons.mp h
    rw [forward, ih hrest, sum_dts_propagate hhead, List.getLastD_cons]
    ring

/-- With messages up to the end of the scan, the filter is propagated by the time since the last
one, and once more by what the messages lack to the end of the scan before. -/
lemma sum_dts_undistortPcl (hr : s.undistortPcl c meas front rest kf = r)
    (h : (s.lastImu :: front :: rest).IsChain fun x y => x.stamp ≤ y.stamp)
    (hend : (rest.getLastD front).stamp ≤ meas.lidarEndTime) :
    r.dts.sum =
      meas.lidarEndTime - max s.lastLidarEndTime s.lastImu.stamp +
        (max s.lastLidarEndTime (rest.getLastD front).stamp - (rest.getLastD front).stamp) := by
  subst hr
  simp only [undistortPcl, List.sum_append, List.sum_singleton]
  rw [sum_dts_forward h]
  simp only [List.getLastD_cons, List.sum_nil]
  split_ifs with hlt
  · ring
  · rw [le_antisymm hend (not_lt.mp hlt)]
    ring

lemma clock_undistortPcl (hr : s.undistortPcl c meas front rest kf = r)
    (hend : (rest.getLastD front).stamp ≤ meas.lidarEndTime) :
    max r.process.lastLidarEndTime r.process.lastImu.stamp = meas.lidarEndTime := by
  subst hr
  exact max_eq_left (by rwa [undistortPcl, List.getLastD_cons])

end Clock

/-! ### The average -/

section First

omit [LinearOrder K] [Group R] [DistribMulAction R V] in
lemma foldl_sample_frame (msgs : List (Imu K V)) (s : ImuProcess K V R) :
    (msgs.foldl sample s).bFirstFrame = s.bFirstFrame ∧
      (msgs.foldl sample s).lastLidarEndTime = s.lastLidarEndTime := by
  induction msgs generalizing s with
  | nil => exact ⟨rfl, rfl⟩
  | cons imu msgs ih => exact ih (s.sample imu)

omit [Group R] [DistribMulAction R V] in
lemma bFirstFrame_imuInit (hr : s.imuInit c front rest kf = (s', kf')) :
    s'.bFirstFrame = false := by
  obtain rfl := (Prod.mk.inj hr).1
  simp only [foldl_sample_frame]
  split_ifs with h
  · rfl
  · exact Bool.not_eq_true _ ▸ h

omit [Group R] [DistribMulAction R V] in
lemma last_imuInit (hr : s.imuInit c front rest kf = (s', kf')) :
    s'.lastImu = rest.getLastD front ∧ s'.lastLidarEndTime = s.lastLidarEndTime := by
  obtain rfl := (Prod.mk.inj hr).1
  refine ⟨List.getLastD_cons (a := front), ?_⟩
  simp only [foldl_sample_frame]
  split_ifs <;> rfl

end First

/-- The process has averaged `msgs`. -/
structure Averages (s : ImuProcess K V R) (msgs : List (Imu K V)) : Prop where
  initIterNum : s.initIterNum = msgs.length + 1
  meanAcc : (msgs.length : K) • s.meanAcc = (msgs.map Imu.linearAcceleration).sum
  meanGyr : (msgs.length : K) • s.meanGyr = (msgs.map Imu.angularVelocity).sum

section Averages

omit [LinearOrder K] [Group R] [DistribMulAction R V] in
lemma Averages.firstFrame (front : Imu K V) (s : ImuProcess K V R) :
    (s.firstFrame front).Averages [] where
  initIterNum := rfl
  meanAcc := by simp
  meanGyr := by simp

variable [CharZero K]

omit [LinearOrder K] in
private lemma mean_step (n : ℕ) (mean cur : V) :
    ((n + 1 : ℕ) : K) • (mean + ((n + 1 : ℕ) : K)⁻¹ • (cur - mean)) = (n : K) • mean + cur := by
  have hn : ((n + 1 : ℕ) : K) ≠ 0 := Nat.cast_ne_zero.mpr n.succ_ne_zero
  rw [smul_add, smul_inv_smul₀ hn, Nat.cast_add, Nat.cast_one]
  module

omit [LinearOrder K] [Group R] [DistribMulAction R V] in
lemma Averages.sample (h : s.Averages msgs) (imu : Imu K V) :
    (s.sample imu).Averages (msgs ++ [imu]) where
  initIterNum := by simp [ImuProcess.sample, h.initIterNum]
  meanAcc := by
    simp only [ImuProcess.sample, h.initIterNum, List.length_append, List.length_singleton,
      List.map_append, List.sum_append, List.map_singleton, List.sum_singleton]
    rw [mean_step, h.meanAcc]
  meanGyr := by
    simp only [ImuProcess.sample, h.initIterNum, List.length_append, List.length_singleton,
      List.map_append, List.sum_append, List.map_singleton, List.sum_singleton]
    rw [mean_step, h.meanGyr]

omit [LinearOrder K] [Group R] [DistribMulAction R V] in
lemma Averages.foldl_sample (h : s.Averages msgs) (rest : List (Imu K V)) :
    (rest.foldl ImuProcess.sample s).Averages (msgs ++ rest) := by
  induction rest generalizing s msgs with
  | nil => rwa [List.append_nil]
  | cons imu rest ih =>
    rw [List.foldl_cons, ← List.singleton_append, ← List.append_assoc]
    exact ih (h.sample imu)

omit [Group R] [DistribMulAction R V] in
lemma Averages.imuInit (h : s.Averages msgs) (hfirst : s.bFirstFrame = true → msgs = [])
    (hr : s.imuInit c front rest kf = (s', kf')) : s'.Averages (msgs ++ front :: rest) := by
  obtain rfl := (Prod.mk.inj hr).1
  split_ifs with hb
  · obtain rfl := hfirst hb
    have h := (Averages.firstFrame front s).foldl_sample (front :: rest)
    exact ⟨h.initIterNum, h.meanAcc, h.meanGyr⟩
  · have h := h.foldl_sample (front :: rest)
    exact ⟨h.initIterNum, h.meanAcc, h.meanGyr⟩

end Averages

end ImuProcess

/-! ### Runs -/

namespace World

variable {c : Toolkit K V R} {w₀ w w' : World K V R} {meas : MeasureGroup K V}
  {es : List (MeasureGroup K V)} {front : Imu K V} {rest : List (Imu K V)}

/-- The time up to which the filter has seen scans and messages. -/
def clock (w : World K V R) : K := max w.process.lastLidarEndTime w.process.lastImu.stamp

/-- The messages of the group are in order, from the last one on to the end of the scan. -/
def InOrder (w : World K V R) (meas : MeasureGroup K V) : Prop :=
  (w.process.lastImu :: meas.imu).IsChain (fun x y => x.stamp ≤ y.stamp) ∧
    ∀ imu ∈ meas.imu, imu.stamp ≤ meas.lidarEndTime

/-- The messages of the group reach beyond the end of the scan before. -/
def Reaches (w : World K V R) (meas : MeasureGroup K V) : Prop :=
  ∀ imu ∈ meas.imu.getLast?, w.process.lastLidarEndTime ≤ imu.stamp

lemma step_cases (h : w.step c meas = some w') :
    (meas.imu = [] ∧ w' = w) ∨
    (∃ front rest s kf, meas.imu = front :: rest ∧ w.process.imuNeedInit = true ∧
      w.process.imuInit c front rest w.kf = (s, kf) ∧
      w' = { w with
        process := { s with imuNeedInit := !decide (s.initIterNum > maxIniCount) }
        kf
        averaged := w.averaged ++ front :: rest }) ∨
    (∃ front rest r, meas.imu = front :: rest ∧ w.process.imuNeedInit = false ∧
      w.process.undistortPcl c meas front rest w.kf = r ∧
      w' = { w with
        process := r.process
        kf := r.kf
        propagated := w.propagated + r.dts.sum
        clouds := w.clouds ++ [r.pclOut] }) := by
  unfold World.step at h
  cases himu : meas.imu with
  | nil =>
    rw [himu] at h
    exact .inl ⟨rfl, (Option.some.inj h).symm⟩
  | cons front rest =>
    rw [himu] at h
    cases hinit : w.process.imuNeedInit with
    | true =>
      simp only [hinit, if_true] at h
      exact .inr (.inl ⟨front, rest, _, _, rfl, rfl, rfl, (Option.some.inj h).symm⟩)
    | false =>
      simp only [hinit, Bool.false_eq_true, if_false] at h
      exact .inr (.inr ⟨front, rest, _, rfl, rfl, rfl, (Option.some.inj h).symm⟩)

/-- `Process` always returns. -/
lemma exists_process_run (c : Toolkit K V R) (w : World K V R) (es : List (MeasureGroup K V)) :
    ∃ w', Run (World.step c) w es w' := by
  induction es generalizing w with
  | nil => exact ⟨w, .nil⟩
  | cons meas es ih =>
    have hstep : ∃ u, w.step c meas = some u := by
      unfold World.step
      split
      · exact ⟨_, rfl⟩
      · split_ifs <;> exact ⟨_, rfl⟩
    obtain ⟨u, hu⟩ := hstep
    obtain ⟨w', hw'⟩ := ih u
    exact ⟨w', run_cons_iff.mpr ⟨u, hu, hw'⟩⟩

lemma imuNeedInit_step (h : w.step c meas = some w') (hinit : w.process.imuNeedInit = false) :
    w'.process.imuNeedInit = false := by
  rcases step_cases h with ⟨-, rfl⟩ | ⟨_, _, _, _, -, hneed, -⟩ | ⟨_, _, r, -, -, rfl, rfl⟩
  · exact hinit
  · rw [hinit] at hneed
    contradiction
  · exact hinit

/-- The last message and the end of the last scan are those of some groups before. -/
lemma last_of_run (hrun : Run (World.step c) w₀ es w) :
    (w.process.lastImu = w₀.process.lastImu ∨ ∃ meas ∈ es, w.process.lastImu ∈ meas.imu) ∧
      (w.process.lastLidarEndTime = w₀.process.lastLidarEndTime ∨
        ∃ meas ∈ es, w.process.lastLidarEndTime = meas.lidarEndTime) := by
  induction hrun with
  | nil => exact ⟨.inl rfl, .inl rfl⟩
  | @snoc es w w' meas _ he ih =>
    have hbefore : (w.process.lastImu = w₀.process.lastImu ∨
          ∃ g ∈ es ++ [meas], w.process.lastImu ∈ g.imu) ∧
        (w.process.lastLidarEndTime = w₀.process.lastLidarEndTime ∨
          ∃ g ∈ es ++ [meas], w.process.lastLidarEndTime = g.lidarEndTime) :=
      ih.imp
        (Or.imp_right fun ⟨g, hg, h⟩ => ⟨g, List.mem_append_left _ hg, h⟩)
        (Or.imp_right fun ⟨g, hg, h⟩ => ⟨g, List.mem_append_left _ hg, h⟩)
    have hmeas : meas ∈ es ++ [meas] := List.mem_append_right _ (List.mem_singleton_self _)
    have hback (front : Imu K V) (rest : List (Imu K V)) : rest.getLastD front ∈ front :: rest := by
      rw [List.getLastD_eq_getLast?]
      exact List.mem_of_getLast? List.getLast?_cons
    rcases step_cases he with ⟨-, rfl⟩ | ⟨front, rest, s, kf, himu, -, hinit, rfl⟩ |
      ⟨front, rest, r, himu, -, rfl, rfl⟩
    · exact hbefore
    · obtain ⟨hlast, hend⟩ := ImuProcess.last_imuInit hinit
      have hmem : s.lastImu ∈ meas.imu := by
        rw [himu, hlast]
        exact hback front rest
      rw [← hend] at hbefore
      exact ⟨.inr ⟨meas, hmeas, hmem⟩, hbefore.2⟩
    · have hmem : (front :: rest).getLastD front ∈ meas.imu := by
        rw [himu, List.getLastD_cons]
        exact hback front rest
      exact ⟨.inr ⟨meas, hmeas, hmem⟩, .inr ⟨meas, hmeas, rfl⟩⟩

section Clock

variable [IsStrictOrderedRing K]

/-- A group takes the filter at least to the end of its scan, and no further just when its messages
reach beyond the end of the scan before. -/
lemma propagated_step (h : w.step c meas = some w') (hinit : w.process.imuNeedInit = false)
    (horder : w.InOrder meas) :
    w.propagated - w.clock ≤ w'.propagated - w'.clock ∧
      (w'.propagated - w'.clock = w.propagated - w.clock ↔ w.Reaches meas) := by
  rcases step_cases h with ⟨himu, rfl⟩ | ⟨_, _, _, _, -, hneed, -⟩ |
    ⟨front, rest, r, himu, -, hr, rfl⟩
  · exact ⟨le_rfl, iff_of_true rfl (by simp [Reaches, himu])⟩
  · rw [hinit] at hneed
    contradiction
  · obtain ⟨hchain, hend⟩ := horder
    rw [himu] at hchain hend
    have hlast : (front :: rest).getLast? = some (rest.getLastD front) := by
      rw [List.getLast?_cons, List.getLastD_eq_getLast?]
    have hback : (rest.getLastD front).stamp ≤ meas.lidarEndTime :=
      hend _ (List.mem_of_getLast? hlast)
    have hreach : w.Reaches meas ↔
        max w.process.lastLidarEndTime (rest.getLastD front).stamp =
          (rest.getLastD front).stamp := by
      simp only [Reaches, himu, hlast, Option.mem_some_iff, forall_eq', max_eq_right_iff]
    have hle : (rest.getLastD front).stamp ≤
        max w.process.lastLidarEndTime (rest.getLastD front).stamp := le_max_right _ _
    simp only [clock, ImuProcess.sum_dts_undistortPcl hr hchain hback,
      ImuProcess.clock_undistortPcl hr hback]
    rw [hreach]
    refine ⟨by linarith, fun h => ?_, fun h => ?_⟩
    · linarith
    · linarith

lemma lag_of_run (hrun : Run (World.step c) w₀ es w) (hinit : w₀.process.imuNeedInit = false)
    (horder : Always (World.step c) w₀ InOrder es) :
    w₀.propagated - w₀.clock ≤ w.propagated - w.clock ∧
      (w.propagated - w.clock = w₀.propagated - w₀.clock ↔
        Always (World.step c) w₀ Reaches es) := by
  induction hrun with
  | nil => exact ⟨le_rfl, iff_of_true rfl always_nil⟩
  | snoc hs he ih =>
    obtain ⟨hle, hiff⟩ := ih horder.of_append
    have hneed := hs.invariant_state (I := fun w => w.process.imuNeedInit = false) hinit
      fun _ _ _ h he => imuNeedInit_step he h
    obtain ⟨hstep, hreach⟩ := propagated_step he hneed (horder.last hs)
    refine ⟨hle.trans hstep, fun heq => ?_, fun hall => ?_⟩
    · have hbefore := le_antisymm (hstep.trans heq.le) hle
      refine (hiff.mp hbefore).snoc fun u hu => ?_
      obtain rfl := hs.unique hu
      exact hreach.mp (heq.trans hbefore.symm)
    · exact (hreach.mpr (hall.last hs)).trans (hiff.mpr hall.of_append)

/-- With its messages in order the filter is never propagated by less than the time that passes, and
by just that time if and only if every group reaches beyond the end of the scan before. -/
theorem propagated_of_run (hrun : Run (World.step c) w₀ es w)
    (hinit : w₀.process.imuNeedInit = false)
    (horder : Always (World.step c) w₀ InOrder es) :
    w.clock - w₀.clock ≤ w.propagated - w₀.propagated ∧
      (w.propagated - w₀.propagated = w.clock - w₀.clock ↔
        Always (World.step c) w₀ Reaches es) := by
  obtain ⟨hle, hiff⟩ := lag_of_run hrun hinit horder
  refine ⟨by linarith, ?_⟩
  rw [← hiff]
  constructor <;> intro h <;> linarith

end Clock

instance : Decidable (w.InOrder meas) := inferInstanceAs (Decidable (_ ∧ _))

theorem propagated_of_run_onLine : ∃ w, Run (World.step .line) onLine [.scan] w ∧
    w.clock - onLine.clock ≤ w.propagated - onLine.propagated ∧
      (w.propagated - onLine.propagated = w.clock - onLine.clock ↔
        Always (World.step .line) onLine Reaches [.scan]) := by
  obtain ⟨w, hrun, -⟩ := exists_run (World.step .line) onLine [.scan] (fun _ => True) rfl
  exact ⟨w, hrun, propagated_of_run hrun rfl (always_of_execAlways (by decide +kernel))⟩

/-- A process that has received nothing. -/
structure Fresh (w : World K V R) : Prop where
  imuNeedInit : w.process.imuNeedInit = true
  initIterNum : w.process.initIterNum = 1
  averaged : w.averaged = []

/-- What holds after the groups `es`. -/
structure Averaged (w₀ : World K V R) (es : List (MeasureGroup K V)) (w : World K V R) : Prop where
  averages : w.process.Averages w.averaged
  first : w.process.bFirstFrame = true → w.averaged = []
  received : w.averaged <+: es.flatMap MeasureGroup.imu
  enough : w.process.imuNeedInit = false → maxIniCount ≤ w.averaged.length
  waiting : w.process.imuNeedInit = true → w.averaged.length < maxIniCount ∧
    w.averaged = es.flatMap MeasureGroup.imu ∧ w.propagated = w₀.propagated ∧ w.clouds = w₀.clouds

omit [LinearOrder K] [Group R] [DistribMulAction R V] in
lemma Fresh.averaged_nil (h : w₀.Fresh) : Averaged w₀ [] w₀ where
  averages := ⟨by simp [h.initIterNum, h.averaged], by simp [h.averaged], by simp [h.averaged]⟩
  first _ := h.averaged
  received := by simp [h.averaged]
  enough hdone := absurd (h.imuNeedInit.symm.trans hdone) (by decide)
  waiting _ := by simp [h.averaged, maxIniCount]

lemma Averaged.step [CharZero K] (h : Averaged w₀ es w) (hstep : w.step c meas = some w') :
    Averaged w₀ (es ++ [meas]) w' := by
  have hflat : (es ++ [meas]).flatMap MeasureGroup.imu =
      es.flatMap MeasureGroup.imu ++ meas.imu := by simp
  rcases step_cases hstep with ⟨himu, rfl⟩ | ⟨front, rest, s, kf, himu, hneed, hinit, rfl⟩ |
    ⟨front, rest, r, himu, hneed, rfl, rfl⟩
  · rw [himu, List.append_nil] at hflat
    exact ⟨h.averages, h.first, hflat ▸ h.received, h.enough, hflat ▸ h.waiting⟩
  · obtain ⟨-, hall, hpropagated, hclouds⟩ := h.waiting hneed
    have haverages := h.averages.imuInit h.first hinit
    have hfirst := ImuProcess.bFirstFrame_imuInit hinit
    have hcount := haverages.initIterNum
    rw [himu, ← hall] at hflat
    refine ⟨⟨haverages.initIterNum, haverages.meanAcc, haverages.meanGyr⟩, fun h => ?_, ?_,
      fun hdone => ?_, fun hwait => ⟨?_, hflat.symm, hpropagated, hclouds⟩⟩
    · exact absurd (hfirst.symm.trans h) (by decide)
    · rw [hflat]
    · rw [Bool.not_eq_false', decide_eq_true_eq, hcount] at hdone
      exact Nat.lt_succ_iff.mp hdone
    · rw [Bool.not_eq_true', decide_eq_false_iff_not, hcount] at hwait
      exact not_lt.mp hwait
  · refine ⟨⟨h.averages.initIterNum, h.averages.meanAcc, h.averages.meanGyr⟩, h.first, ?_,
      h.enough, fun hwait => ?_⟩
    · rw [hflat]
      exact h.received.trans (List.prefix_append _ _)
    · exact absurd (hneed.symm.trans hwait) (by decide)

/-- The averages are the exact ones of the first messages, at least ten once the process is
initialised and less before, when nothing is put out. -/
theorem mean_of_run [CharZero K] (hrun : Run (World.step c) w₀ es w) (hfresh : w₀.Fresh) :
    (w.averaged.length : K) • w.process.meanAcc =
        (w.averaged.map Imu.linearAcceleration).sum ∧
      (w.averaged.length : K) • w.process.meanGyr = (w.averaged.map Imu.angularVelocity).sum ∧
      w.averaged <+: es.flatMap MeasureGroup.imu ∧
      (w.process.imuNeedInit = false → 10 ≤ w.averaged.length) ∧
      (w.process.imuNeedInit = true → w.averaged.length < 10 ∧
        w.averaged = es.flatMap MeasureGroup.imu ∧ w.propagated = w₀.propagated ∧
        w.clouds = w₀.clouds) := by
  have h : Averaged w₀ es w := by
    induction hrun with
    | nil => exact hfresh.averaged_nil
    | snoc _ he ih => exact ih.step he
  exact ⟨h.averages.meanAcc, h.averages.meanGyr, h.received, h.enough, h.waiting⟩

/-- After five groups of two messages the process is initialised, and the sixth scan is put out. -/
theorem mean_of_run_started : ∃ w, Run (World.step .line) started (List.replicate 6 .scan) w ∧
    w.process.imuNeedInit = false ∧ w.clouds.length = 1 ∧
    (w.averaged.length : ℚ) • w.process.meanAcc =
        (w.averaged.map Imu.linearAcceleration).sum ∧
      (w.averaged.length : ℚ) • w.process.meanGyr =
        (w.averaged.map Imu.angularVelocity).sum ∧
      w.averaged <+: (List.replicate 6 MeasureGroup.scan).flatMap MeasureGroup.imu ∧
      (w.process.imuNeedInit = false → 10 ≤ w.averaged.length) ∧
      (w.process.imuNeedInit = true → w.averaged.length < 10 ∧
        w.averaged = (List.replicate 6 MeasureGroup.scan).flatMap MeasureGroup.imu ∧
        w.propagated = started.propagated ∧ w.clouds = started.clouds) := by
  obtain ⟨w, hrun, hinit, hclouds⟩ := exists_run (World.step .line) started
    (List.replicate 6 .scan) (fun w => w.process.imuNeedInit = false ∧ w.clouds.length = 1)
    (by decide +kernel)
  exact ⟨w, hrun, hinit, hclouds, mean_of_run hrun ⟨rfl, rfl, rfl⟩⟩

end World

end

end ImuProcessing
