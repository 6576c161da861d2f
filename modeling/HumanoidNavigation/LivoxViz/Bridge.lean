import HumanoidNavigation.FastLio.Buffers
import HumanoidNavigation.Numeric.ExtFloat
import HumanoidNavigation.Transition.Run
import Mathlib.Algebra.Field.Rat
import Mathlib.Tactic.FieldSimp
import Mathlib.Tactic.Linarith
import Mathlib.Tactic.Ring

/-!
# The Livox visualization bridge

`livox_viz_node.cpp` collects the points of LiDAR packets in a batch, and a timer publishes the
batch as one cloud. A batch is begun by the first packet after a publication, and again by a packet
from before its start or more than two seconds after it; the points that were held are then
dropped.
The start `0` stands for no batch.

The coordinates of a point are only looked at by `std::isfinite`, so their type is arbitrary.
-/

namespace LivoxViz

open Transition CppFloat FastLio

/-! ### The node -/

structure Header where
  stamp : Ros.Stamp
  frameId : String
  deriving DecidableEq

/-- A `livox_ros_driver2/CustomMsg`. -/
structure CustomMsg (C : Type) where
  header : Header
  points : List (CustomPoint C)
  deriving DecidableEq

structure VizPoint (C F : Type) where
  x : C
  y : C
  z : C
  intensity : F
  time : F
  ring : UInt16
  tag : UInt8
  deriving DecidableEq

/-- A `sensor_msgs/PointCloud2` with the fields of `VizPoint`. -/
structure PointCloud2 (C F : Type) where
  header : Header
  height : ℕ
  width : ℕ
  isBigendian : Bool
  isDense : Bool
  points : List (VizPoint C F)
  deriving DecidableEq

/-- The parameter `max_points_per_scan`, and `std::isfinite` for a coordinate. -/
structure Config (C : Type) where
  maxPointsPerScan : ℤ := 200000
  isfinite : C → Bool

/-- `max_points_` -/
def Config.maxPoints {C : Type} (cfg : Config C) : ℕ := (max cfg.maxPointsPerScan 1000).toNat

/-- `stamp_to_ns` -/
def stampToNs (stamp : Ros.Stamp) : ℤ := stamp.sec * 1000000000 + stamp.nanosec

/-- The variables of the node that the batches use. -/
structure Bridge (C F : Type) where
  points : List (VizPoint C F) := []
  cloudHeader : Header := ⟨⟨0, 0⟩, ""⟩
  batchStartNs : ℤ := 0
  truncatedPackets : ℕ := 0
  deriving DecidableEq

variable {C F : Type} [CppFloat F]

/-- The point that `lidar_callback` stores. -/
def toVizPoint (packetOffset : F) (point : CustomPoint C) : VizPoint C F where
  x := point.x
  y := point.y
  z := point.z
  intensity := lit point.reflectivity.toNat
  time := packetOffset + lit point.offsetTime * lit (1 / 10 ^ 9)
  ring := point.line.toUInt16
  tag := point.tag

def finite (cfg : Config C) (point : CustomPoint C) : Bool :=
  cfg.isfinite point.x && cfg.isfinite point.y && cfg.isfinite point.z

namespace Bridge

omit [CppFloat F] in
/-- The first packet of a batch gives its start and its header. -/
def beginBatch (s : Bridge C F) (header : Header) : Bridge C F :=
  if s.batchStartNs = 0 then
    { s with batchStartNs := stampToNs header.stamp, cloudHeader := header }
  else s

omit [CppFloat F] in
/-- A packet from before the start or too long after it drops the batch and begins another. -/
def restartBatch (s : Bridge C F) (header : Header) : Bridge C F :=
  let packetNs := stampToNs header.stamp
  if packetNs < s.batchStartNs ∨ 2000000000 < packetNs - s.batchStartNs then
    { s with points := [], batchStartNs := packetNs, cloudHeader := header }
  else s

/-- The number of points of a packet that are looked at. -/
def count (cfg : Config C) (s : Bridge C F) (msg : CustomMsg C) : ℕ :=
  min (cfg.maxPoints - s.points.length) msg.points.length

/-- Append a packet to the batch. -/
def append (cfg : Config C) (s : Bridge C F) (msg : CustomMsg C) : Bridge C F :=
  let count := s.count cfg msg
  let packetOffset := lit (stampToNs msg.header.stamp - s.batchStartNs : ℤ) * lit (1 / 10 ^ 9)
  { s with
    points := s.points ++ ((msg.points.take count).filter (finite cfg)).map
      (toVizPoint packetOffset)
    truncatedPackets :=
      if count < msg.points.length then s.truncatedPackets + 1 else s.truncatedPackets }

/-- `lidar_callback` -/
def lidarCallback (cfg : Config C) (s : Bridge C F) (msg : CustomMsg C) : Bridge C F :=
  ((s.beginBatch msg.header).restartBatch msg.header).append cfg msg

omit [CppFloat F] in
/-- `publish_cloud`, with the cloud that it publishes -/
def publishCloud (s : Bridge C F) : Bridge C F × Option (PointCloud2 C F) :=
  if s.points.isEmpty then (s, none)
  else
    ({ s with points := [], batchStartNs := 0, truncatedPackets := 0 },
      some ⟨s.cloudHeader, 1, s.points.length % 2 ^ 32, false, true, s.points⟩)

end Bridge

/-! ### The system -/

inductive Event (C : Type) where
  | lidar (msg : CustomMsg C)
  | timer

/-- The node and the clouds that it has published. -/
structure World (C F : Type) where
  bridge : Bridge C F := {}
  published : List (PointCloud2 C F) := []
  deriving DecidableEq

def World.step (cfg : Config C) (w : World C F) : Event C → Option (World C F)
  | .lidar msg => some { w with bridge := w.bridge.lidarCallback cfg msg }
  | .timer =>
    let r := w.bridge.publishCloud
    some ⟨r.1, w.published ++ r.2.toList⟩

/-- A point that was received and the stamp of its packet. -/
structure Received (C : Type) where
  stamp : Ros.Stamp
  point : CustomPoint C
  deriving DecidableEq

/-- The points that an event brings. -/
def Event.received : Event C → List (Received C)
  | lidar msg => msg.points.map fun point => ⟨msg.header.stamp, point⟩
  | timer => []

/-! ### Batches -/

section Exact

attribute [local instance] CppFloat.exact

lemma seconds_eq (stamp : Ros.Stamp) : stamp.seconds = stampToNs stamp / 10 ^ 9 := by
  simp only [Ros.Stamp.seconds, stampToNs]
  push_cast
  ring

/-- The stored point is the received one, and its time is counted from the stamp of the header. -/
structure Shows (header : Header) (v : VizPoint C ℚ) (r : Received C) : Prop where
  x : v.x = r.point.x
  y : v.y = r.point.y
  z : v.z = r.point.z
  intensity : v.intensity = r.point.reflectivity.toNat
  ring : v.ring = r.point.line.toUInt16
  tag : v.tag = r.point.tag
  time : header.stamp.seconds + v.time = r.stamp.seconds + r.point.offsetTime / 10 ^ 9

/-- `points` are the received points `source` under `header`. -/
structure Batch (cfg : Config C) (header : Header) (points : List (VizPoint C ℚ))
    (source : List (Received C)) : Prop where
  size : points.length ≤ cfg.maxPoints
  shows : List.Forall₂ (Shows header) points source
  window : ∀ r ∈ source, header.stamp.seconds ≤ r.stamp.seconds ∧
    r.stamp.seconds ≤ header.stamp.seconds + 2

variable {cfg : Config C} {s : Bridge C ℚ} {w w' : World C ℚ} {es : List (Event C)} {e : Event C}
  {msg : CustomMsg C} {header : Header} {source received : List (Received C)}

lemma batch_nil : Batch cfg header [] [] := by
  refine ⟨Nat.zero_le _, .nil, ?_⟩
  simp

/-- The batch that is held: its start is the stamp of its header, unless there is none. -/
structure Held (cfg : Config C) (s : Bridge C ℚ) (source : List (Received C)) : Prop where
  batch : Batch cfg s.cloudHeader s.points source
  start : s.batchStartNs ≠ 0 → s.batchStartNs = stampToNs s.cloudHeader.stamp
  empty : s.batchStartNs = 0 → s.points = []

/-- The packet belongs to the batch that is held. -/
structure Open (s : Bridge C ℚ) (stamp : Ros.Stamp) : Prop where
  ne_zero : s.batchStartNs ≠ 0
  start : s.batchStartNs = stampToNs s.cloudHeader.stamp
  window : stampToNs s.cloudHeader.stamp ≤ stampToNs stamp ∧
    stampToNs stamp ≤ stampToNs s.cloudHeader.stamp + 2000000000

lemma Held.beginBatch (h : Held cfg s source) (hpos : 0 < stampToNs header.stamp) :
    Held cfg (s.beginBatch header) source ∧ (s.beginBatch header).batchStartNs ≠ 0 := by
  simp only [Bridge.beginBatch]
  split_ifs with hzero
  · have hpoints := h.empty hzero
    have hsource : source = [] := by
      have hlen := h.batch.shows.length_eq
      rw [hpoints] at hlen
      exact List.length_eq_zero_iff.mp hlen.symm
    subst hsource
    refine ⟨⟨?_, fun _ => rfl, fun h0 => absurd h0 hpos.ne'⟩, hpos.ne'⟩
    rw [hpoints]
    exact batch_nil
  · exact ⟨h, hzero⟩

/-- What is held after a restart is held before it, or nothing. -/
lemma Held.restartBatch (h : Held cfg s source) (hstart : s.batchStartNs ≠ 0)
    (hpos : 0 < stampToNs header.stamp) : ∃ kept, kept.Sublist source ∧
      Held cfg (s.restartBatch header) kept ∧ Open (s.restartBatch header) header.stamp := by
  simp only [Bridge.restartBatch]
  split_ifs with hreset
  · refine ⟨[], List.nil_sublist _, ⟨batch_nil, fun _ => rfl, fun _ => rfl⟩, hpos.ne', rfl,
      le_rfl, ?_⟩
    show stampToNs header.stamp ≤ stampToNs header.stamp + 2000000000
    omega
  · rw [not_or, not_lt, not_lt] at hreset
    have hheader := h.start hstart
    refine ⟨source, List.Sublist.refl _, h, hstart, hheader, ?_⟩
    omega

/-- The points that a packet adds are counted from the header of the batch. -/
lemma shows_toVizPoint (hopen : Open s msg.header.stamp) (point : CustomPoint C) :
    Shows s.cloudHeader
      (toVizPoint (lit (stampToNs msg.header.stamp - s.batchStartNs : ℤ) * lit (1 / 10 ^ 9)) point)
      ⟨msg.header.stamp, point⟩ := by
  refine ⟨rfl, rfl, rfl, rfl, rfl, rfl, ?_⟩
  simp only [toVizPoint, exact_lit, seconds_eq, hopen.start]
  push_cast
  ring

lemma window_of_open (hopen : Open s msg.header.stamp) :
    s.cloudHeader.stamp.seconds ≤ msg.header.stamp.seconds ∧
      msg.header.stamp.seconds ≤ s.cloudHeader.stamp.seconds + 2 := by
  obtain ⟨hle, hge⟩ := hopen.window
  have hle' : (stampToNs s.cloudHeader.stamp : ℚ) ≤ stampToNs msg.header.stamp := by
    exact_mod_cast hle
  have hge' : (stampToNs msg.header.stamp : ℚ) ≤ stampToNs s.cloudHeader.stamp + 2000000000 := by
    exact_mod_cast hge
  rw [seconds_eq, seconds_eq]
  constructor
  · linarith
  · linarith

/-- A packet of the batch adds some of its points, in their order. -/
lemma Held.append (h : Held cfg s source) (hopen : Open s msg.header.stamp) :
    ∃ added, added.Sublist (Event.lidar msg).received ∧
      Held cfg (s.append cfg msg) (source ++ added) := by
  set taken := (msg.points.take (s.count cfg msg)).filter (finite cfg) with htaken
  have hsub : taken.Sublist msg.points := List.filter_sublist.trans (List.take_sublist _ _)
  refine ⟨taken.map fun point => ⟨msg.header.stamp, point⟩, hsub.map _, ⟨?_, ?_, ?_⟩,
    h.start, fun hzero => absurd hzero hopen.ne_zero⟩
  · have hlen : taken.length ≤ cfg.maxPoints - s.points.length := by
      refine (List.length_filter_le _ _).trans ?_
      rw [List.length_take]
      exact (min_le_left _ _).trans (min_le_left _ _)
    have hsize := h.batch.size
    simp only [Bridge.append, List.length_append, List.length_map, ← htaken]
    omega
  · refine List.rel_append h.batch.shows ?_
    rw [List.forall₂_map_left_iff, List.forall₂_map_right_iff, List.forall₂_same]
    exact fun point _ => shows_toVizPoint hopen point
  · intro r hr
    rcases List.mem_append.mp hr with hr | hr
    · exact h.batch.window r hr
    · obtain ⟨point, -, rfl⟩ := List.mem_map.mp hr
      exact window_of_open (s := s) hopen

lemma Held.lidarCallback (h : Held cfg s source) (hpos : 0 < stampToNs msg.header.stamp) :
    ∃ kept added, kept.Sublist source ∧ added.Sublist (Event.lidar msg).received ∧
      Held cfg (s.lidarCallback cfg msg) (kept ++ added) := by
  obtain ⟨hbegun, hstart⟩ := h.beginBatch hpos
  obtain ⟨kept, hkept, hheld, hopen⟩ := hbegun.restartBatch hstart hpos
  obtain ⟨added, hadded, hheld⟩ := hheld.append hopen
  exact ⟨kept, added, hkept, hadded, hheld⟩

/-! ### Runs -/

/-- The published clouds and the batch that is held are made of different received points, in the
order in which these arrived. -/
def Sound (cfg : Config C) (received : List (Received C)) (w : World C ℚ) : Prop :=
  ∃ sources held, (sources.flatten ++ held).Sublist received ∧
    List.Forall₂ (fun cloud source => Batch cfg cloud.header cloud.points source) w.published
      sources ∧ Held cfg w.bridge held

lemma Sound.step (h : Sound cfg received w) (he : w.step cfg e = some w')
    (hpos : ∀ msg, e = .lidar msg → 0 < stampToNs msg.header.stamp) :
    Sound cfg (received ++ e.received) w' := by
  obtain ⟨sources, held, hsub, hbatches, hheld⟩ := h
  cases e with
  | lidar msg =>
    obtain rfl := Option.some.inj he
    obtain ⟨kept, added, hkept, hadded, hheld⟩ := hheld.lidarCallback (hpos msg rfl)
    refine ⟨sources, kept ++ added, ?_, hbatches, hheld⟩
    rw [← List.append_assoc]
    exact (((List.Sublist.refl _).append hkept).trans hsub).append hadded
  | timer =>
    obtain rfl := Option.some.inj he
    rw [show (Event.timer : Event C).received = [] from rfl, List.append_nil]
    simp only [Bridge.publishCloud]
    split_ifs with hempty
    · exact ⟨sources, held, hsub, by simpa using hbatches, hheld⟩
    · refine ⟨sources ++ [held], [], by simpa using hsub, ?_, batch_nil, fun h => absurd rfl h,
        fun _ => rfl⟩
      exact List.rel_append hbatches (.cons hheld.batch .nil)

/-- For every sequence of packets with positive stamps and timer ticks: every published cloud has
at most `max_points_` points; each of them is a received point, no received point is published
twice, and they are published in the order of arrival; in exact arithmetic the stamp of the cloud
and the time of the point add up to when it was measured; and the packets of a cloud have stamps
from its own stamp to two seconds later. -/
theorem published_of_run (hrun : Run (World.step cfg) ({} : World C ℚ) es w)
    (hpos : ∀ msg, Event.lidar msg ∈ es → 0 < stampToNs msg.header.stamp) :
    ∃ sources : List (List (Received C)),
      sources.flatten.Sublist (es.flatMap Event.received) ∧
      List.Forall₂ (fun cloud source => Batch cfg cloud.header cloud.points source) w.published
        sources := by
  have hsound : Sound cfg (es.flatMap Event.received) w := by
    induction hrun with
    | nil =>
      exact ⟨[], [], List.Sublist.refl _, .nil, batch_nil, fun h => absurd rfl h, fun _ => rfl⟩
    | @snoc es s t e hs he ih =>
      rw [List.flatMap_append, List.flatMap_singleton]
      refine (ih fun msg hmsg => ?_).step he fun msg hmsg => ?_
      · exact hpos msg (List.mem_append_left _ hmsg)
      · subst hmsg
        exact hpos msg (List.mem_append_right _ (List.mem_singleton_self _))
  obtain ⟨sources, held, hsub, hbatches, -⟩ := hsound
  exact ⟨sources, (List.sublist_append_left _ _).trans hsub, hbatches⟩

/-- A packet with one point on the `x` axis, `offsetTime` nanoseconds after its stamp. -/
def packetAt (sec : ℤ) (offsetTime : ℕ) (x : ExtFloat ℚ) : CustomMsg (ExtFloat ℚ) where
  header := ⟨⟨sec, 0⟩, "livox_frame"⟩
  points := [⟨offsetTime, x, 0, 0, 7, 0, 1⟩]

/-- A packet without finite points begins a batch, the next one fills it, and a packet from before
its start drops it. -/
theorem published_of_packets : ∃ w : World (ExtFloat ℚ) ℚ,
    Run (World.step { isfinite := ExtFloat.isFinite }) {}
      [.lidar (packetAt 20 0 .nan), .timer, .lidar (packetAt 21 5 (.fin 1)),
        .lidar (packetAt 10 3 (.fin 2)), .lidar (packetAt 11 4 (.fin 3)), .timer] w ∧
    ∃ sources : List (List (Received (ExtFloat ℚ))),
      sources.flatten.Sublist ([Event.lidar (packetAt 20 0 .nan), .timer,
        .lidar (packetAt 21 5 (.fin 1)), .lidar (packetAt 10 3 (.fin 2)),
        .lidar (packetAt 11 4 (.fin 3)), .timer].flatMap Event.received) ∧
      List.Forall₂ (fun cloud source =>
        Batch { isfinite := ExtFloat.isFinite } cloud.header cloud.points source) w.published
        sources := by
  obtain ⟨w, hw, -⟩ := exists_run
    (World.step (F := ℚ) { isfinite := ExtFloat.isFinite }) {}
    [.lidar (packetAt 20 0 .nan), .timer, .lidar (packetAt 21 5 (.fin 1)),
      .lidar (packetAt 10 3 (.fin 2)), .lidar (packetAt 11 4 (.fin 3)), .timer]
    (fun w => w.published.map (fun cloud => cloud.points.length) = [2]) (by decide +kernel)
  refine ⟨w, hw, published_of_run hw ?_⟩
  intro msg hmsg
  simp only [List.mem_cons, Event.lidar.injEq, reduceCtorEq, List.not_mem_nil, or_false,
    false_or] at hmsg
  rcases hmsg with rfl | rfl | rfl | rfl <;> decide

end Exact

end LivoxViz
