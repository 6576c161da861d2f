import HumanoidNavigation.FastLio.ImuProcess
import HumanoidNavigation.FastLio.ImuSplit
import Mathlib.Data.Fin.VecNotation

/-!
# The groups that the IMU process gets

Without an IMU loop-back the messages of a group are in order, none is after the end of its scan and
none is before the end of any scan before it. So the IMU process propagates the filter by just the
time that passes, `propagated_of_node`, in exact arithmetic. The clock of the process at the start
may not be ahead of the messages: `last_imu_` has the stamp zero then, but nothing has set
`last_lidar_end_time_`.
-/

namespace FastLio

open Transition CppFloat

attribute [local instance] CppFloat.exact

/-- The time of a message. -/
def Imu.time (msg : Imu ℚ) : ℚ := getTimeSec msg.stamp

/-- What the IMU process reads of a group. -/
def MeasureGroup.toProcess (g : MeasureGroup ℚ) : ImuProcessing.MeasureGroup ℚ (Fin 3 → ℚ) where
  lidarBegTime := g.lidarBegTime.value
  lidarEndTime := g.lidarEndTime
  lidar := g.lidar.value.map fun p => ⟨p.curvature, ![p.x, p.y, p.z]⟩
  imu := g.imu.map fun msg =>
    ⟨msg.time, ![msg.angularVelocity.x, msg.angularVelocity.y, msg.angularVelocity.z],
      ![msg.linearAcceleration.x, msg.linearAcceleration.y, msg.linearAcceleration.z]⟩

/-! ### The order of the messages -/

/-- The messages are in order, from group to group and in the buffer. -/
structure Ordered (w : World ℚ) : Prop where
  sorted : w.lio.imuBuffer.Pairwise fun x y => x.time ≤ y.time
  last : ∀ msg ∈ w.lio.imuBuffer, msg.time ≤ w.lio.lastTimestampImu
  group : ∀ g ∈ w.groups, (g.imu.Pairwise fun x y => x.time ≤ y.time) ∧
    ∀ msg ∈ g.imu, msg.time ≤ g.lidarEndTime
  ended : ∀ g ∈ w.groups, g.lidarEndTime ≤ w.lio.lastTimestampImu ∧
    ∀ msg ∈ w.lio.imuBuffer, g.lidarEndTime ≤ msg.time
  groups : w.groups.Pairwise fun g g' => ∀ msg ∈ g'.imu, g.lidarEndTime ≤ msg.time
  staged : w.lio.lidarPushed = true → w.lio.measures.lidarEndTime = w.lio.lidarEndTime

variable {cfg : Config ℚ} {w w' : World ℚ} {s t : Lio ℚ} {lidar : Entry (PointCloudXYZI ℚ)}
  {time : Entry ℚ}

lemma imuSorted_iff {msgs : List (Imu ℚ)} :
    ImuSorted msgs ↔ msgs.Pairwise fun x y => x.time ≤ y.time := by
  simp [ImuSorted, Imu.time]

lemma ordered_init : Ordered World.init := by
  constructor <;> simp [World.init, Lio.init]

/-- A step that leaves the IMU messages and what is staged. -/
lemma Ordered.congr (h : Ordered w) (hbuffer : w'.lio.imuBuffer = w.lio.imuBuffer)
    (hlast : w'.lio.lastTimestampImu = w.lio.lastTimestampImu) (hgroups : w'.groups = w.groups)
    (hstaged : w'.lio.lidarPushed = true → w'.lio.measures.lidarEndTime = w'.lio.lidarEndTime) :
    Ordered w' where
  sorted := hbuffer ▸ h.sorted
  last := hbuffer ▸ hlast ▸ h.last
  group := hgroups ▸ h.group
  ended := hgroups ▸ hbuffer ▸ hlast ▸ h.ended
  groups := hgroups ▸ h.groups
  staged := hstaged

lemma stage_last (s : Lio ℚ) (lidar : Entry (PointCloudXYZI ℚ)) (time : Entry ℚ) :
    (s.stage lidar time).lastTimestampImu = s.lastTimestampImu := by
  obtain ⟨num, endTime, mean, hend⟩ := s.scanEnd_eq lidar.value time.value
  simp only [Lio.stage, hend]
  split_ifs <;> rfl

lemma stage_staged (h : s.lidarPushed = true → s.measures.lidarEndTime = s.lidarEndTime) :
    (s.stage lidar time).measures.lidarEndTime = (s.stage lidar time).lidarEndTime := by
  unfold Lio.stage
  split_ifs with hpushed
  · exact h hpushed
  · rfl

/-- A message that is not before the last one enters the buffer. -/
lemma Ordered.imu (h : Ordered w) {msg : Imu ℚ}
    (hback : w.lio.lastTimestampImu ≤ getTimeSec (w.lio.imuStamp cfg msg)) :
    Ordered { w with lio := w.lio.imuCbk cfg msg } := by
  have hbuffer : (w.lio.imuCbk cfg msg).imuBuffer.Sublist
      (w.lio.imuBuffer ++ [{ msg with stamp := w.lio.imuStamp cfg msg }]) := by
    have hlt : lt (getTimeSec (w.lio.imuStamp cfg msg)) w.lio.lastTimestampImu = false :=
      decide_eq_false (not_lt.mpr hback)
    simp only [Lio.imuCbk, hlt, Bool.false_eq_true, if_false]
    exact List.drop_sublist _ _
  have hle : ∀ x ∈ w.lio.imuBuffer, x.time ≤ getTimeSec (w.lio.imuStamp cfg msg) :=
    fun x hx => (h.last x hx).trans hback
  have hmem : ∀ x ∈ (w.lio.imuCbk cfg msg).imuBuffer,
      x ∈ w.lio.imuBuffer ∨ x.time = getTimeSec (w.lio.imuStamp cfg msg) := by
    intro x hx
    rcases List.mem_append.mp (hbuffer.subset hx) with hx | hx
    · exact .inl hx
    · rw [List.mem_singleton.mp hx]
      exact .inr rfl
  refine ⟨?_, fun x hx => ?_, h.group, fun g hg => ⟨(h.ended g hg).1.trans hback, fun x hx => ?_⟩,
    h.groups, h.staged⟩
  · refine List.Pairwise.sublist hbuffer (List.pairwise_append.mpr ⟨h.sorted,
      List.pairwise_singleton _ _, fun x hx y hy => ?_⟩)
    rw [List.mem_singleton.mp hy]
    exact hle x hx
  · rcases hmem x hx with hx | hx
    · exact hle x hx
    · exact hx.le
  · rcases hmem x hx with hx | hx
    · exact (h.ended g hg).2 x hx
    · exact ((h.ended g hg).1.trans hback).trans hx.ge

/-- A group takes the messages up to the end of its scan. -/
lemma Ordered.timer_of_reached (h : Ordered w) (hfront : w.lio.Front lidar time)
    (hreached : w.lio.reached lidar time = true) : Ordered w.timer := by
  obtain ⟨taken, rest, hsync⟩ := Lio.syncPackages_of_reached hfront hreached
  obtain ⟨htaken, hend, hrest⟩ : w.lio.SplitsImu w.lio.syncPackages.1 := by
    rcases w.lio.syncPackages_cases with ⟨hfalse, -⟩ | ⟨-, hsplits⟩
    · rw [hsync] at hfalse
      contradiction
    · exact hsplits
  replace hrest := hrest ImuWorld.stampOrder_exact (imuSorted_iff.mpr h.sorted)
  simp only [hsync, exact_lt, decide_eq_false_iff_not, not_lt] at htaken hend hrest
  have hlast : (w.lio.stage lidar time).lidarEndTime ≤ w.lio.lastTimestampImu := by
    simpa [Lio.reached, stage_last] using hreached
  have hstaged : (w.lio.stage lidar time).measures.lidarEndTime =
      (w.lio.stage lidar time).lidarEndTime := stage_staged h.staged
  have hsorted := h.sorted
  rw [← htaken, List.pairwise_append] at hsorted
  have hleft : ∀ x ∈ taken, x ∈ w.lio.imuBuffer := fun x hx => htaken ▸ List.mem_append_left _ hx
  have hright : ∀ x ∈ rest, x ∈ w.lio.imuBuffer := fun x hx => htaken ▸ List.mem_append_right _ hx
  rw [World.timer, hsync]
  refine ⟨hsorted.2.1, fun x hx => ?_, fun g hg => ?_, fun g hg => ?_,
    List.pairwise_append.mpr ⟨h.groups, List.pairwise_singleton _ _, fun g hg g' hg' x hx => ?_⟩,
    fun hpushed => absurd hpushed Bool.false_ne_true⟩
  · rw [stage_last]
    exact h.last x (hright x hx)
  · rcases List.mem_append.mp hg with hg | hg
    · exact h.group g hg
    · rw [List.mem_singleton.mp hg]
      exact ⟨hsorted.1, fun x hx => (hend x hx).trans hstaged.ge⟩
  · rw [stage_last]
    rcases List.mem_append.mp hg with hg | hg
    · exact ⟨(h.ended g hg).1, fun x hx => (h.ended g hg).2 x (hright x hx)⟩
    · rw [List.mem_singleton.mp hg]
      exact ⟨hstaged.le.trans hlast, fun x hx => hstaged.le.trans (hrest x hx)⟩
  · rw [List.mem_singleton.mp hg'] at hx
    exact (h.ended g hg).2 x (hleft x hx)

lemma Ordered.timer (h : Ordered w) : Ordered w.timer := by
  by_cases hfront : ∃ lidar time, w.lio.Front lidar time
  · obtain ⟨lidar, time, hfront⟩ := hfront
    cases hreached : w.lio.reached lidar time with
    | true => exact h.timer_of_reached hfront hreached
    | false =>
      rw [World.timer_of_not_reached hfront hreached]
      exact h.congr (w.lio.imuBuffer_stage lidar time) (stage_last _ _ _) rfl
        fun _ => stage_staged h.staged
  · rw [World.timer_of_not_front fun lidar time hf => hfront ⟨lidar, time, hf⟩]
    exact h

/-- A scan callback leaves the IMU messages and what is staged. -/
lemma Ordered.received {n : ℕ} {stamp : ℚ} {scans times : List ℕ} (h : Ordered w)
    (hreceived : Lio.Received w.lio t n stamp scans times) : Ordered (w.received t) := by
  refine h.congr hreceived.imuBuffer hreceived.lastTimestampImu rfl fun hpushed => ?_
  show t.measures.lidarEndTime = t.lidarEndTime
  rw [hreceived.measures, hreceived.lidarEndTime]
  exact h.staged (hreceived.lidarPushed ▸ hpushed)

/-- `ImuWorld` only watches the node. -/
lemma world_step {v v' : ImuWorld ℚ} {e : Event ℚ} (he : v.step cfg e = some v') :
    v.world.step cfg e = some v'.world := by
  obtain ⟨u, hu, rfl⟩ := Option.map_eq_some_iff.mp he
  rw [hu]
  cases e with
  | timer => split_ifs <;> rfl
  | _ => rfl

lemma Ordered.step {v v' : ImuWorld ℚ} {e : Event ℚ} (h : Ordered v.world)
    (hback : v.NoLoopBack cfg e) (he : v.step cfg e = some v') : Ordered v'.world := by
  have hworld := world_step he
  cases e with
  | pointCloud2 msg =>
    simp only [World.step, Option.ite_none_left_eq_some, Option.some.injEq] at hworld
    rw [← hworld.2]
    cases hglitch : v.world.lio.glitch (getTimeSec msg.stamp) with
    | false => exact h.received (Lio.received_standardPclCbk cfg hglitch)
    | true =>
      rw [Lio.standardPclCbk_of_glitch hglitch]
      exact h.congr rfl rfl rfl h.staged
  | livoxPacket packet =>
    simp only [World.step, Option.ite_none_right_eq_some, Option.some.injEq] at hworld
    rw [← hworld.2]
    cases hcomplete : v.world.lio.completes cfg packet with
    | true => exact h.received (Lio.received_livoxPclCbk hcomplete)
    | false =>
      rw [Lio.livoxPclCbk_of_not_completes hcomplete]
      exact h.congr rfl rfl rfl h.staged
  | imu msg =>
    rw [← Option.some.inj hworld]
    exact h.imu (not_lt.mp (decide_eq_false_iff_not.mp hback))
  | timer =>
    rw [← Option.some.inj hworld]
    exact h.timer

/-- Without an IMU loop-back the messages are in order. -/
theorem ordered_of_run {v : ImuWorld ℚ} {es : List (Event ℚ)}
    (hrun : Run (ImuWorld.step cfg) .init es v)
    (hback : Always (ImuWorld.step cfg) .init (ImuWorld.NoLoopBack cfg) es) : Ordered v.world :=
  hrun.invariant (I := fun _ v => Ordered v.world) ordered_init
    (fun _ _ _ _ _ hp h he => h.step hp he) hback

/-! ### The node and the process -/

section

open ImuProcessing (Toolkit)

variable {R : Type*} [Group R] [DistribMulAction R (Fin 3 → ℚ)] {c : Toolkit ℚ (Fin 3 → ℚ) R}
  {p₀ p q : ImuProcessing.World ℚ (Fin 3 → ℚ) R} {g : MeasureGroup ℚ}
  {pre post : List (MeasureGroup ℚ)}

lemma Ordered.inOrder (h : Ordered w) (hgroups : w.groups = pre ++ g :: post)
    (hrun : Run (ImuProcessing.World.step c) p₀ (pre.map MeasureGroup.toProcess) p)
    (hstart : ∀ msg ∈ g.imu, p₀.clock ≤ msg.time) :
    p.InOrder g.toProcess ∧ p.Reaches g.toProcess := by
  have hg : g ∈ w.groups := hgroups ▸ List.mem_append_right _ List.mem_cons_self
  have hpre : ∀ g' ∈ pre, g' ∈ w.groups := fun g' hg' => hgroups ▸ List.mem_append_left _ hg'
  have hended : ∀ g' ∈ pre, ∀ msg ∈ g.imu, g'.lidarEndTime ≤ msg.time := by
    have hpair := h.groups
    rw [hgroups] at hpair
    exact fun g' hg' => (List.pairwise_append.mp hpair).2.2 g' hg' g List.mem_cons_self
  obtain ⟨hlast, hend⟩ := ImuProcessing.World.last_of_run hrun
  have hlastImu : ∀ msg ∈ g.imu, p.process.lastImu.stamp ≤ msg.time := by
    intro msg hmsg
    rcases hlast with heq | ⟨meas, hmeas, hmem⟩
    · rw [heq]
      exact (le_max_right _ _).trans (hstart msg hmsg)
    · obtain ⟨g', hg', rfl⟩ := List.mem_map.mp hmeas
      obtain ⟨msg', hmsg', heq⟩ := List.mem_map.mp hmem
      rw [← heq]
      exact ((h.group g' (hpre g' hg')).2 msg' hmsg').trans (hended g' hg' msg hmsg)
  have hlastEnd : ∀ msg ∈ g.imu, p.process.lastLidarEndTime ≤ msg.time := by
    intro msg hmsg
    rcases hend with heq | ⟨meas, hmeas, heq⟩
    · rw [heq]
      exact (le_max_left _ _).trans (hstart msg hmsg)
    · obtain ⟨g', hg', rfl⟩ := List.mem_map.mp hmeas
      rw [heq]
      exact hended g' hg' msg hmsg
  have hchain : (p.process.lastImu :: g.toProcess.imu).Pairwise fun x y => x.stamp ≤ y.stamp := by
    refine List.pairwise_cons.mpr ⟨fun imu himu => ?_, List.pairwise_map.mpr (h.group g hg).1⟩
    obtain ⟨msg, hmsg, rfl⟩ := List.mem_map.mp himu
    exact hlastImu msg hmsg
  refine ⟨⟨hchain.isChain, fun imu himu => ?_⟩, fun imu himu => ?_⟩
  · obtain ⟨msg, hmsg, rfl⟩ := List.mem_map.mp himu
    exact (h.group g hg).2 msg hmsg
  · obtain ⟨msg, hmsg, rfl⟩ := List.mem_map.mp (List.mem_of_getLast? himu)
    exact hlastEnd msg hmsg

end

/-- The process before the first scan, when it is initialised. -/
def standing : ImuProcessing.World ℚ (Fin 3 → ℚ) ℤˣ where
  process := ⟨0, 1, false, false, 11, ![0, 0, 981 / 100], 0, ⟨0, 0, 0⟩, 0, 0, 0⟩
  kf := ⟨0, 1, 1, 0, 0, 0, 0, ![0, 0, -981 / 100]⟩
  averaged := []
  propagated := 0
  clouds := []

end FastLio
