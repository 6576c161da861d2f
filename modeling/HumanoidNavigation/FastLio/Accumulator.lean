import HumanoidNavigation.FastLio.System
import Mathlib.Algebra.Order.Floor.Semiring
import Mathlib.Tactic.FieldSimp
import Mathlib.Tactic.Linarith

/-!
# The Livox accumulator

`livox_pcl_cbk` collects packets until their last point is as late as a scan should be long, and
hands the scan to `process_livox_scan`. It begins a new scan when the accumulator is more than a
second old, and leaves out points that are too late for 32 bits. For packets that are not empty,
in order and without long gaps neither happens: while points are held, the last packet is less
than the duration of a scan after the start (`Holds`). So every point is handed on or held, at its
own time.

`point_num` has 32 bits and is the number of points of the scan modulo `2 ^ 32`.
-/

namespace FastLio

open Transition CppFloat

/-! ### Scans that are handed on -/

section

variable {F : Type} [CppFloat F] {cfg : Config F} {s : Lio F} {packet : CustomMsg F}

namespace Lio

/-- The scan that a packet makes `livox_pcl_cbk` pass to `process_livox_scan`. -/
def emitted (cfg : Config F) (s : Lio F) (packet : CustomMsg F) : Option (CustomMsg F) :=
  if s.completes cfg packet then
    some { (s.accumulate packet).1 with
      pointNum := (s.accumulate packet).1.points.length % 2 ^ 32 }
  else none

/-- `livox_pcl_cbk` processes what is emitted and holds everything else. -/
lemma livoxPclCbk_eq (cfg : Config F) (s : Lio F) (packet : CustomMsg F) :
    s.livoxPclCbk cfg packet =
      match s.emitted cfg packet with
      | some scan => processLivoxScan cfg { s with
          livoxScanAccumulator := none, livoxScanStartTime := (s.accumulate packet).2 } scan
      | none => { s with
          livoxScanAccumulator := some (s.accumulate packet).1
          livoxScanStartTime := (s.accumulate packet).2 } := by
  cases h : complete cfg (s.accumulate packet).1 with
  | true => simp only [livoxPclCbk, emitted, completes, h, if_true]
  | false => simp only [livoxPclCbk, emitted, completes, h, Bool.false_eq_true, if_false]

/-- The accumulator and its start are the same. -/
structure SameAccumulator (s t : Lio F) : Prop where
  accumulator : t.livoxScanAccumulator = s.livoxScanAccumulator
  start : t.livoxScanStartTime = s.livoxScanStartTime

variable (cfg s) in
lemma sameAccumulator_selfSync : SameAccumulator s (s.selfSync cfg) := by
  obtain ⟨flag, diff, hsync⟩ := selfSync_eq cfg s
  rw [hsync]
  exact ⟨rfl, rfl⟩

variable (cfg s) in
lemma sameAccumulator_standardPclCbk (msg : PointCloud2) :
    SameAccumulator s (s.standardPclCbk cfg msg) := by
  simp only [standardPclCbk]
  split_ifs
  · exact ⟨rfl, rfl⟩
  · obtain ⟨h₁, h₂⟩ := sameAccumulator_selfSync cfg (leakGuard
      { pushScan { s with scanCount := s.scanCount + 1, isFirstLidar := false } (cfg.process msg)
          (getTimeSec msg.stamp) with lastTimestampLidar := getTimeSec msg.stamp })
    exact ⟨h₁, h₂⟩

variable (cfg s) in
lemma livoxScanAccumulator_processLivoxScan (msg : CustomMsg F) :
    (s.processLivoxScan cfg msg).livoxScanAccumulator = s.livoxScanAccumulator := by
  simp only [processLivoxScan, pushScan]
  rw [(sameAccumulator_selfSync cfg _).accumulator]
  split_ifs
  · rfl
  · rfl

lemma sameAccumulator_syncPackages : SameAccumulator s s.syncPackages.1 := by
  simp only [syncPackages]
  split
  · next lidar ls time ts imu imus hl ht hi =>
    have hstaged := s.staged_stage lidar time
    split_ifs <;> exact ⟨hstaged.livoxScanAccumulator, hstaged.livoxScanStartTime⟩
  · exact ⟨rfl, rfl⟩

end Lio

lemma World.sameAccumulator_timer (w : World F) : w.lio.SameAccumulator w.timer.lio := by
  have h := w.lio.sameAccumulator_syncPackages
  simp only [World.timer]
  split
  · next hsync => rwa [hsync] at h
  · next hsync => rwa [hsync] at h

/-! ### The system -/

/-- The node and the scans that `livox_pcl_cbk` has passed to `process_livox_scan`. -/
structure Intake (F : Type) where
  world : World F
  scans : List (CustomMsg F)

namespace Intake

def init : Intake F := ⟨.init, []⟩

/-- The scan that an event makes the node process. -/
def emittedBy (cfg : Config F) (w : Intake F) : Event F → Option (CustomMsg F)
  | .livoxPacket packet => w.world.lio.emitted cfg packet
  | .pointCloud2 _ | .imu _ | .timer => none

def step (cfg : Config F) (w : Intake F) (e : Event F) : Option (Intake F) :=
  (w.world.step cfg e).map fun t => ⟨t, w.scans ++ (w.emittedBy cfg e).toList⟩

end Intake

end

/-- A point that was received and the stamp of its packet. -/
structure PacketPoint (F : Type) where
  stamp : Ros.Stamp
  point : CustomPoint F

/-- The packet that an event brings. -/
def Event.packet {F : Type} : Event F → Option (CustomMsg F)
  | livoxPacket packet => some packet
  | pointCloud2 _ | imu _ | timer => none

/-- The packets of a run. -/
def packets {F : Type} (es : List (Event F)) : List (CustomMsg F) := es.filterMap Event.packet

/-- The points of a packet. -/
def CustomMsg.received {F : Type} (packet : CustomMsg F) : List (PacketPoint F) :=
  packet.points.map fun point => ⟨packet.stamp, point⟩

/-! ### Times -/

/-- A stamp in nanoseconds. -/
def stampNs (stamp : Ros.Stamp) : ℤ := stamp.sec * 10 ^ 9 + stamp.nanosec

section Exact

attribute [local instance] CppFloat.exact

variable {cfg : Config ℚ} {s : Lio ℚ} {packet : CustomMsg ℚ}

lemma getTimeSec_eq (stamp : Ros.Stamp) : (getTimeSec stamp : ℚ) = stampNs stamp / 10 ^ 9 := by
  simp only [getTimeSec, exact_lit, stampNs]
  push_cast
  rfl

/-- `target_scan_duration` -/
def targetScanDuration (cfg : Config ℚ) : ℚ := 1 / Max.max 1 (cfg.scanRate : ℚ)

/-- The stream of packets that the accumulator is made for: they are not empty and in order, and
a gap leaves room for a scan within a second. -/
structure Steady (cfg : Config ℚ) (ps : List (CustomMsg ℚ)) : Prop where
  ne_nil : ∀ p ∈ ps, p.points ≠ []
  offset : ∀ p ∈ ps, ∀ point ∈ p.points, point.offsetTime < 2 ^ 32 - 10 ^ 9
  gaps : ps.IsChain fun p q => stampNs p.stamp ≤ stampNs q.stamp ∧
    (stampNs q.stamp - stampNs p.stamp : ℚ) / 10 ^ 9 ≤ 1 - targetScanDuration cfg

/-- The point of a scan with the stamp `stamp` is the received one, at its own time. -/
structure Dated (stamp : Ros.Stamp) (point : CustomPoint ℚ) (r : PacketPoint ℚ) : Prop where
  eq : point = { r.point with offsetTime := point.offsetTime }
  time : stampNs stamp + point.offsetTime = stampNs r.stamp + r.point.offsetTime
  lt : point.offsetTime < 2 ^ 32

/-! ### One packet -/

lemma adjustPoints_eq {offset : ℕ} {points : List (CustomPoint ℚ)}
    (h : ∀ point ∈ points, offset + point.offsetTime < 2 ^ 32) :
    Lio.adjustPoints offset points =
      points.map fun point => { point with offsetTime := offset + point.offsetTime } := by
  rw [Lio.adjustPoints, ← List.filterMap_eq_map]
  refine List.filterMap_congr fun point hpoint => ?_
  have hlt := h point hpoint
  exact if_pos (by omega)

lemma packetOffsetNs_eq {start stamp : Ros.Stamp} (hle : stampNs start ≤ stampNs stamp)
    (hstart : s.scanStart (getTimeSec stamp) = getTimeSec start) :
    s.packetOffsetNs (getTimeSec stamp) = (stampNs stamp - stampNs start).toNat := by
  have hdiff : (getTimeSec stamp - getTimeSec start : ℚ) =
      (stampNs stamp - stampNs start : ℤ) / 10 ^ 9 := by
    rw [getTimeSec_eq, getTimeSec_eq]
    push_cast
    ring
  have hnonneg : (0 : ℚ) ≤ (stampNs stamp - stampNs start : ℤ) / 10 ^ 9 := by
    have : (0 : ℚ) ≤ (stampNs stamp - stampNs start : ℤ) := by exact_mod_cast sub_nonneg.mpr hle
    positivity
  have hmax : CppFloat.max (lit 0 : ℚ) ((stampNs stamp - stampNs start : ℤ) / 10 ^ 9) =
      (stampNs stamp - stampNs start : ℤ) / 10 ^ 9 := by
    simp only [CppFloat.max, exact_lit, exact_lt, decide_eq_true_eq]
    split_ifs with hlt
    · rfl
    · exact le_antisymm hnonneg (not_lt.mp hlt)
  rw [Lio.packetOffsetNs, hstart, hdiff, hmax]
  show ⌊((stampNs stamp - stampNs start : ℤ) / 10 ^ 9 : ℚ) * (10 ^ 9 : ℚ)⌋.toNat = _
  rw [div_mul_cancel₀ _ (by norm_num), Int.floor_intCast]

lemma dated_adjust {start : Ros.Stamp} {packet : CustomMsg ℚ}
    (hle : stampNs start ≤ stampNs packet.stamp)
    (hlt : ∀ point ∈ packet.points,
      (stampNs packet.stamp - stampNs start).toNat + point.offsetTime < 2 ^ 32) :
    List.Forall₂ (Dated start)
      (Lio.adjustPoints (stampNs packet.stamp - stampNs start).toNat packet.points)
      packet.received := by
  rw [adjustPoints_eq hlt, CustomMsg.received, List.forall₂_map_left_iff,
    List.forall₂_map_right_iff, List.forall₂_same]
  intro point hpoint
  refine ⟨rfl, ?_, hlt point hpoint⟩
  push_cast
  omega

/-- What is held while a scan is not complete. The last packet is later than the start by less
than the duration of a scan. -/
structure Holds (cfg : Config ℚ) (s : Lio ℚ) (last : Option (CustomMsg ℚ))
    (pending : List (PacketPoint ℚ)) : Prop where
  nil : s.livoxScanAccumulator = none → pending = []
  start : ∀ acc ∈ s.livoxScanAccumulator, s.livoxScanStartTime = getTimeSec acc.stamp
  dated : ∀ acc ∈ s.livoxScanAccumulator, List.Forall₂ (Dated acc.stamp) acc.points pending
  age : ∀ acc ∈ s.livoxScanAccumulator, ∃ p ∈ last, stampNs acc.stamp ≤ stampNs p.stamp ∧
    (stampNs p.stamp - stampNs acc.stamp : ℚ) / 10 ^ 9 < targetScanDuration cfg

/-- The packet follows the last one as in a steady stream. -/
structure Succeeds (cfg : Config ℚ) (last : Option (CustomMsg ℚ)) (packet : CustomMsg ℚ) :
    Prop where
  ne_nil : packet.points ≠ []
  offset : ∀ point ∈ packet.points, point.offsetTime < 2 ^ 32 - 10 ^ 9
  gap : ∀ p ∈ last, stampNs p.stamp ≤ stampNs packet.stamp ∧
    (stampNs packet.stamp - stampNs p.stamp : ℚ) / 10 ^ 9 ≤ 1 - targetScanDuration cfg

/-- The accumulator after a packet: all points are there, and the last one is not before the
packet. -/
structure Accumulates (s : Lio ℚ) (packet : CustomMsg ℚ) (pending : List (PacketPoint ℚ)) : Prop
    where
  start : (s.accumulate packet).2 = getTimeSec (s.accumulate packet).1.stamp
  dated : List.Forall₂ (Dated (s.accumulate packet).1.stamp) (s.accumulate packet).1.points
    (pending ++ packet.received)
  le : stampNs (s.accumulate packet).1.stamp ≤ stampNs packet.stamp
  last : ∃ point, (s.accumulate packet).1.points.getLast? = some point ∧
    stampNs packet.stamp - stampNs (s.accumulate packet).1.stamp ≤ point.offsetTime

/-- The last of the points that a packet adds. -/
lemma getLast?_adjust {offset : ℕ} (points : List (CustomPoint ℚ)) {packet : CustomMsg ℚ}
    (hne : packet.points ≠ [])
    (hlt : ∀ point ∈ packet.points, offset + point.offsetTime < 2 ^ 32) :
    ∃ point, (points ++ Lio.adjustPoints offset packet.points).getLast? = some point ∧
      offset ≤ point.offsetTime := by
  rw [adjustPoints_eq hlt, ← List.dropLast_append_getLast hne, List.map_append,
    List.map_singleton, ← List.append_assoc, List.getLast?_concat]
  exact ⟨_, rfl, Nat.le_add_right _ _⟩

variable {last : Option (CustomMsg ℚ)} {pending : List (PacketPoint ℚ)}

/-- A packet that finds no scan begins one. -/
lemma accumulate_of_none (hnone : s.livoxScanAccumulator = none) : s.accumulate packet =
    (⟨packet.stamp, packet.pointNum, Lio.adjustPoints 0 packet.points⟩,
      getTimeSec packet.stamp) := by
  have hbegins : s.beginsScan (getTimeSec packet.stamp) = true := by simp [Lio.beginsScan, hnone]
  have hstart : s.scanStart (getTimeSec packet.stamp) = getTimeSec packet.stamp := if_pos hbegins
  have hoffset : s.packetOffsetNs (getTimeSec packet.stamp) = 0 := by
    rw [packetOffsetNs_eq le_rfl hstart, sub_self, Int.toNat_zero]
  simp only [Lio.accumulate, hnone, hoffset, hstart, List.nil_append]

/-- A packet that finds a scan which is not older than a second is added to it. -/
lemma accumulate_of_some {acc : CustomMsg ℚ} (hsome : s.livoxScanAccumulator = some acc)
    (hstart : s.livoxScanStartTime = getTimeSec acc.stamp)
    (hle : stampNs acc.stamp ≤ stampNs packet.stamp)
    (hsecond : (stampNs packet.stamp - stampNs acc.stamp : ℚ) / 10 ^ 9 ≤ 1) :
    s.accumulate packet = (⟨acc.stamp, acc.pointNum, acc.points ++ Lio.adjustPoints
      (stampNs packet.stamp - stampNs acc.stamp).toNat packet.points⟩, getTimeSec acc.stamp) := by
  have hbegins : s.beginsScan (getTimeSec packet.stamp) = false := by
    simp only [Lio.beginsScan, hsome, hstart, getTimeSec_eq, exact_lt, exact_lit,
      Option.isNone_some, Bool.false_or, Bool.or_eq_false_iff, decide_eq_false_iff_not, not_lt]
    constructor
    · rw [div_le_div_iff_of_pos_right (by norm_num)]
      exact_mod_cast hle
    · rw [← sub_div]
      exact hsecond
  have hscanStart : s.scanStart (getTimeSec packet.stamp) = getTimeSec acc.stamp := by
    rw [Lio.scanStart, hbegins, if_neg (by simp), hstart]
  have hoffset := packetOffsetNs_eq hle hscanStart
  simp only [Lio.accumulate, hsome, hbegins, hoffset, hscanStart]

lemma Holds.accumulates_of_none (h : Holds cfg s last pending)
    (hsucceeds : Succeeds cfg last packet) (hnone : s.livoxScanAccumulator = none) :
    Accumulates s packet pending := by
  have hlt (point : CustomPoint ℚ) (hpoint : point ∈ packet.points) :
      (stampNs packet.stamp - stampNs packet.stamp).toNat + point.offsetTime < 2 ^ 32 := by
    have := hsucceeds.offset point hpoint
    rw [sub_self]
    omega
  have hdated := dated_adjust le_rfl hlt
  obtain ⟨point, hlast, -⟩ := getLast?_adjust [] hsucceeds.ne_nil hlt
  rw [sub_self, Int.toNat_zero] at hdated hlast
  have hacc : s.accumulate packet = _ := accumulate_of_none hnone
  refine ⟨by rw [hacc], ?_, by rw [hacc], point, by rw [hacc]; exact hlast, ?_⟩
  · rw [hacc, h.nil hnone]
    exact hdated
  · rw [hacc]
    simp

/-- A packet of a steady stream that finds a scan is not too late for it. -/
lemma Holds.accumulates_of_some (h : Holds cfg s last pending)
    (hsucceeds : Succeeds cfg last packet) {acc : CustomMsg ℚ}
    (hsome : s.livoxScanAccumulator = some acc) : Accumulates s packet pending := by
  obtain ⟨p, hp, hle, hage⟩ := h.age acc hsome
  obtain ⟨hmono, hgap⟩ := hsucceeds.gap p hp
  have hle' : stampNs acc.stamp ≤ stampNs packet.stamp := hle.trans hmono
  have hsecond : (stampNs packet.stamp - stampNs acc.stamp : ℚ) / 10 ^ 9 < 1 := by
    have hsplit : (stampNs packet.stamp - stampNs acc.stamp : ℚ) / 10 ^ 9 =
        (stampNs packet.stamp - stampNs p.stamp : ℚ) / 10 ^ 9 +
          (stampNs p.stamp - stampNs acc.stamp : ℚ) / 10 ^ 9 := by ring
    linarith
  have hns : stampNs packet.stamp - stampNs acc.stamp < 10 ^ 9 := by
    rw [div_lt_one (by norm_num)] at hsecond
    exact_mod_cast hsecond
  have hlt (point : CustomPoint ℚ) (hpoint : point ∈ packet.points) :
      (stampNs packet.stamp - stampNs acc.stamp).toNat + point.offsetTime < 2 ^ 32 := by
    have := hsucceeds.offset point hpoint
    omega
  have hacc := accumulate_of_some hsome (h.start acc hsome) hle' hsecond.le
  obtain ⟨point, hlast, hpoint⟩ := getLast?_adjust acc.points hsucceeds.ne_nil hlt
  refine ⟨by rw [hacc], ?_, by rw [hacc]; exact hle', point, by rw [hacc]; exact hlast, ?_⟩
  · rw [hacc]
    exact List.rel_append (h.dated acc hsome) (dated_adjust hle' hlt)
  · rw [hacc]
    show stampNs packet.stamp - stampNs acc.stamp ≤ point.offsetTime
    omega

lemma Holds.accumulates (h : Holds cfg s last pending) (hsucceeds : Succeeds cfg last packet) :
    Accumulates s packet pending := by
  cases hacc : s.livoxScanAccumulator with
  | none => exact h.accumulates_of_none hsucceeds hacc
  | some acc => exact h.accumulates_of_some hsucceeds hacc

/-- The scan contains the received points `source`, at their own times, and its last point is as
late as a scan should be long. -/
structure Emitted (cfg : Config ℚ) (scan : CustomMsg ℚ) (source : List (PacketPoint ℚ)) : Prop where
  dated : List.Forall₂ (Dated scan.stamp) scan.points source
  pointNum : scan.pointNum = scan.points.length % 2 ^ 32
  late : ∃ point, scan.points.getLast? = some point ∧
    targetScanDuration cfg ≤ point.offsetTime / 10 ^ 9

lemma completes_iff {point : CustomPoint ℚ}
    (hlast : (s.accumulate packet).1.points.getLast? = some point) :
    s.completes cfg packet = true ↔ targetScanDuration cfg ≤ point.offsetTime / 10 ^ 9 := by
  have hduration : Lio.accumulatedDuration (s.accumulate packet).1 =
      (point.offsetTime : ℚ) / 10 ^ 9 := by
    simp only [Lio.accumulatedDuration, hlast, exact_lit]
    exact mul_one_div _ _
  rw [Lio.completes, Lio.complete, hduration, Bool.not_eq_true', exact_lt,
    decide_eq_false_iff_not, not_lt]
  rfl

/-- A packet is handed on with everything that was held, or held with it. -/
lemma Holds.livoxPclCbk (h : Holds cfg s last pending) (hsucceeds : Succeeds cfg last packet) :
    (∃ scan, s.emitted cfg packet = some scan ∧ Emitted cfg scan (pending ++ packet.received) ∧
        Holds cfg (s.livoxPclCbk cfg packet) (some packet) []) ∨
      s.emitted cfg packet = none ∧
        Holds cfg (s.livoxPclCbk cfg packet) (some packet) (pending ++ packet.received) := by
  have hacc := h.accumulates hsucceeds
  obtain ⟨point, hlast, hpoint⟩ := hacc.last
  rw [Lio.livoxPclCbk_eq]
  cases hcompletes : s.completes cfg packet with
  | true =>
    have hemitted : s.emitted cfg packet = some { (s.accumulate packet).1 with
        pointNum := (s.accumulate packet).1.points.length % 2 ^ 32 } := if_pos hcompletes
    rw [hemitted]
    refine Or.inl ⟨_, rfl, ⟨hacc.dated, rfl, point, hlast, ?_⟩, ?_⟩
    · exact (completes_iff hlast).mp hcompletes
    · have hnone := Lio.livoxScanAccumulator_processLivoxScan cfg { s with
        livoxScanAccumulator := none, livoxScanStartTime := (s.accumulate packet).2 }
        { (s.accumulate packet).1 with
          pointNum := (s.accumulate packet).1.points.length % 2 ^ 32 }
      refine ⟨fun _ => rfl, ?_, ?_, ?_⟩ <;>
        · intro acc hsome
          cases hsome.symm.trans hnone
  | false =>
    have hemitted : s.emitted cfg packet = none := if_neg (by simp [hcompletes])
    rw [hemitted]
    refine Or.inr ⟨rfl, nofun, ?_, ?_, ?_⟩
    · rintro acc ⟨⟩
      exact hacc.start
    · rintro acc ⟨⟩
      exact hacc.dated
    · rintro acc ⟨⟩
      refine ⟨packet, rfl, hacc.le, ?_⟩
      have hshort : (point.offsetTime : ℚ) / 10 ^ 9 < targetScanDuration cfg := by
        rw [← not_le, ← completes_iff hlast, hcompletes]
        simp
      have hle : (stampNs packet.stamp - stampNs (s.accumulate packet).1.stamp : ℚ) ≤
          point.offsetTime := by exact_mod_cast hpoint
      exact (div_le_div_of_nonneg_right hle (by norm_num)).trans_lt hshort

/-! ### Runs -/

lemma Holds.congr {t : Lio ℚ} (h : Holds cfg s last pending) (hsame : s.SameAccumulator t) :
    Holds cfg t last pending := by
  obtain ⟨hacc, hstart⟩ := hsame
  refine ⟨?_, ?_, ?_, ?_⟩
  · rw [hacc]
    exact h.nil
  · rw [hacc, hstart]
    exact h.start
  · rw [hacc]
    exact h.dated
  · rw [hacc]
    exact h.age

lemma Steady.of_append {ps qs : List (CustomMsg ℚ)} (h : Steady cfg (ps ++ qs)) :
    Steady cfg ps where
  ne_nil p hp := h.ne_nil p (List.mem_append_left _ hp)
  offset p hp := h.offset p (List.mem_append_left _ hp)
  gaps := h.gaps.left_of_append

lemma Steady.follows {ps : List (CustomMsg ℚ)} (h : Steady cfg (ps ++ [packet])) :
    Succeeds cfg ps.getLast? packet where
  ne_nil := h.ne_nil _ (List.mem_append_right _ (List.mem_singleton_self _))
  offset := h.offset _ (List.mem_append_right _ (List.mem_singleton_self _))
  gap p hp := (List.isChain_append.mp h.gaps).2.2 p hp packet rfl

namespace Intake

variable {w w' : Intake ℚ} {e : Event ℚ} {es : List (Event ℚ)} {received : List (PacketPoint ℚ)}

/-- The scans and the accumulator are made of the received points, in their order. -/
def Sound (cfg : Config ℚ) (received : List (PacketPoint ℚ)) (last : Option (CustomMsg ℚ))
    (w : Intake ℚ) : Prop :=
  ∃ sources pending, received = sources.flatten ++ pending ∧
    List.Forall₂ (Emitted cfg) w.scans sources ∧ Holds cfg w.world.lio last pending

lemma Sound.congr {t : World ℚ} (h : Sound cfg received last w)
    (hsame : w.world.lio.SameAccumulator t.lio) :
    Sound cfg received last ⟨t, w.scans ++ []⟩ := by
  rw [List.append_nil]
  obtain ⟨sources, pending, hreceived, hscans, hholds⟩ := h
  exact ⟨sources, pending, hreceived, hscans, hholds.congr hsame⟩

lemma Sound.livoxPacket (h : Sound cfg received last w)
    (he : w.step cfg (.livoxPacket packet) = some w') (hsucceeds : Succeeds cfg last packet) :
    Sound cfg (received ++ packet.received) (some packet) w' := by
  obtain ⟨t, ht, rfl⟩ := Option.map_eq_some_iff.mp he
  simp only [World.step, Option.ite_none_right_eq_some, Option.some.injEq] at ht
  obtain ⟨-, rfl⟩ := ht
  obtain ⟨sources, pending, rfl, hscans, hholds⟩ := h
  rcases hholds.livoxPclCbk hsucceeds with ⟨scan, hemitted, hscan, hholds⟩ | ⟨hemitted, hholds⟩
  · refine ⟨sources ++ [pending ++ packet.received], [], by simp, ?_, hholds⟩
    simp only [emittedBy, hemitted]
    exact List.rel_append hscans (.cons hscan .nil)
  · refine ⟨sources, pending ++ packet.received, by simp, ?_, hholds⟩
    simp only [emittedBy, hemitted]
    simpa using hscans

lemma Sound.other (h : Sound cfg received last w) (he : w.step cfg e = some w')
    (hother : e.packet = none) : Sound cfg received last w' := by
  obtain ⟨t, ht, rfl⟩ := Option.map_eq_some_iff.mp he
  cases e with
  | livoxPacket packet => cases hother
  | pointCloud2 msg =>
    simp only [World.step, Option.ite_none_left_eq_some, Option.some.injEq] at ht
    obtain ⟨-, rfl⟩ := ht
    exact h.congr (Lio.sameAccumulator_standardPclCbk _ _ _)
  | imu msg =>
    obtain rfl := Option.some.inj ht
    exact h.congr ⟨rfl, rfl⟩
  | timer =>
    obtain rfl := Option.some.inj ht
    exact h.congr w.world.sameAccumulator_timer

/-- For every steady stream of packets, whatever else the node does in between: the scans passed to
`process_livox_scan` and then the accumulator contain the received points, each once and in the
order of arrival, at their own times and with offsets of 32 bits. The last point of a scan is as
late as a scan should be long, and `point_num` is the number of its points modulo `2 ^ 32`. -/
theorem points_conserved (hrun : Run (step cfg) init es w) (hsteady : Steady cfg (packets es)) :
    ∃ sources pending, (packets es).flatMap CustomMsg.received = sources.flatten ++ pending ∧
      List.Forall₂ (Emitted cfg) w.scans sources ∧
      (w.world.lio.livoxScanAccumulator = none → pending = []) ∧
      ∀ acc ∈ w.world.lio.livoxScanAccumulator,
        List.Forall₂ (Dated acc.stamp) acc.points pending := by
  have hsound : Sound cfg ((packets es).flatMap CustomMsg.received) (packets es).getLast? w := by
    induction hrun with
    | nil => exact ⟨[], [], rfl, .nil, fun _ => rfl, nofun, nofun, nofun⟩
    | @snoc es s t e hs he ih =>
      cases hpacket : e.packet with
      | none =>
        have hes : packets (es ++ [e]) = packets es := by simp [packets, hpacket]
        rw [hes] at hsteady ⊢
        exact (ih hsteady).other he hpacket
      | some packet =>
        have hes : packets (es ++ [e]) = packets es ++ [packet] := by simp [packets, hpacket]
        rw [hes] at hsteady ⊢
        rw [List.flatMap_append, List.flatMap_singleton, List.getLast?_concat]
        cases e with
        | livoxPacket p =>
          cases hpacket
          exact Sound.livoxPacket (ih hsteady.of_append) he hsteady.follows
        | pointCloud2 | imu | timer => cases hpacket
  obtain ⟨sources, pending, hreceived, hscans, hholds⟩ := hsound
  exact ⟨sources, pending, hreceived, hscans, hholds.nil, hholds.dated⟩

/-- A packet of one point. -/
def onePoint (nanosec offsetTime : ℕ) : CustomMsg ℚ where
  stamp := ⟨10, nanosec⟩
  pointNum := 1
  points := [⟨offsetTime, 1, 0, 0, 0, 0, 0⟩]

/-- The second packet completes a scan, and the third one begins another. -/
theorem points_conserved_of_packets : ∃ w, Run (step (.mid360 fun _ => [])) init
      [.livoxPacket (onePoint 0 (5 * 10 ^ 7)), .imu (imuAt 9),
        .livoxPacket (onePoint (6 * 10 ^ 7) (5 * 10 ^ 7)), .timer,
        .livoxPacket (onePoint (9 * 10 ^ 7) 1)] w ∧
    w.scans.map (fun scan => scan.pointNum) = [2] ∧
    ∃ sources pending,
      (onePoint 0 (5 * 10 ^ 7)).received ++ (onePoint (6 * 10 ^ 7) (5 * 10 ^ 7)).received ++
        (onePoint (9 * 10 ^ 7) 1).received = sources.flatten ++ pending ∧
      List.Forall₂ (Emitted (.mid360 fun _ => [])) w.scans sources ∧
      (w.world.lio.livoxScanAccumulator = none → pending = []) ∧
      ∀ acc ∈ w.world.lio.livoxScanAccumulator,
        List.Forall₂ (Dated acc.stamp) acc.points pending := by
  obtain ⟨w, hw, hscans⟩ := exists_run (step (.mid360 fun _ => [])) init
    [.livoxPacket (onePoint 0 (5 * 10 ^ 7)), .imu (imuAt 9),
      .livoxPacket (onePoint (6 * 10 ^ 7) (5 * 10 ^ 7)), .timer,
      .livoxPacket (onePoint (9 * 10 ^ 7) 1)]
    (fun w => w.scans.map (fun scan => scan.pointNum) = [2]) (by decide +kernel)
  refine ⟨w, hw, hscans, points_conserved hw ⟨?_, ?_, ?_⟩⟩
  · decide +kernel
  · decide +kernel
  · decide +kernel

/-! ### Scans of `2 ^ 32` points -/

/-- A packet of `n` points at the time of its stamp. -/
def manyPoints (n : ℕ) : CustomMsg ℚ where
  stamp := ⟨10, 0⟩
  pointNum := n % 2 ^ 32
  points := .replicate n ⟨0, 1, 0, 0, 0, 0, 0⟩

/-- `n` points, and one that is as late as a scan is long. -/
def crowd (n : ℕ) : List (CustomMsg ℚ) := [manyPoints n, onePoint 0 (10 ^ 8)]

lemma targetScanDuration_mid360 :
    targetScanDuration (.mid360 fun _ => []) = 1 / 10 := by
  decide +kernel

lemma offsetTime_manyPoints {n : ℕ} {point : CustomPoint ℚ} (h : point ∈ (manyPoints n).points) :
    point.offsetTime = 0 := by
  rw [List.eq_of_mem_replicate h]

lemma steady_crowd {n : ℕ} (hn : n ≠ 0) : Steady (.mid360 fun _ => []) (crowd n) where
  ne_nil p hp := by
    simp only [crowd, List.mem_cons, List.not_mem_nil, or_false] at hp
    rcases hp with rfl | rfl
    · exact fun h => hn ((List.replicate_eq_nil_iff _).mp h)
    · exact List.cons_ne_nil _ _
  offset p hp point hpoint := by
    simp only [crowd, List.mem_cons, List.not_mem_nil, or_false] at hp
    rcases hp with rfl | rfl
    · rw [offsetTime_manyPoints hpoint]
      norm_num
    · rw [List.mem_singleton.mp hpoint]
      norm_num
  gaps := by
    refine .cons_cons ⟨le_rfl, ?_⟩ (.singleton _)
    have hstamp : stampNs (onePoint 0 (10 ^ 8)).stamp = stampNs (manyPoints n).stamp := rfl
    rw [hstamp, sub_self, zero_div, targetScanDuration_mid360]
    norm_num

/-- The first packet stays in the accumulator. -/
lemma livoxPclCbk_manyPoints {n : ℕ} (hn : n ≠ 0) :
    (Lio.init : Lio ℚ).emitted (.mid360 fun _ => []) (manyPoints n) = none ∧
      (Lio.init : Lio ℚ).livoxPclCbk (.mid360 fun _ => []) (manyPoints n) = { Lio.init with
        livoxScanAccumulator := some (manyPoints n)
        livoxScanStartTime := getTimeSec ⟨10, 0⟩ } := by
  have hacc : (Lio.init : Lio ℚ).accumulate (manyPoints n) =
      (manyPoints n, getTimeSec ⟨10, 0⟩) := by
    rw [accumulate_of_none rfl, adjustPoints_eq fun point hpoint => ?_]
    · simp [manyPoints]
    · rw [offsetTime_manyPoints hpoint]
      norm_num
  have hlast : ((Lio.init : Lio ℚ).accumulate (manyPoints n)).1.points.getLast? =
      some ⟨0, 1, 0, 0, 0, 0, 0⟩ := by
    rw [hacc, manyPoints, List.getLast?_replicate, if_neg hn]
  have hcompletes : (Lio.init : Lio ℚ).completes (.mid360 fun _ => []) (manyPoints n) = false := by
    rw [← Bool.not_eq_true, completes_iff hlast, targetScanDuration_mid360]
    norm_num
  refine ⟨if_neg (by simp [hcompletes]), ?_⟩
  rw [Lio.livoxPclCbk_of_not_completes hcompletes, hacc]

/-- All points of the two packets are in one scan. -/
lemma emitted_crowd {n : ℕ} (hn : n ≠ 0) : ∃ w, Run (step (.mid360 fun _ => [])) init
    ((crowd n).map .livoxPacket) w ∧
    ∃ scan ∈ w.scans, scan.points.length = n + 1 ∧ scan.pointNum = (n + 1) % 2 ^ 32 := by
  obtain ⟨hnone, hheld⟩ := livoxPclCbk_manyPoints hn
  set s := (Lio.init : Lio ℚ).livoxPclCbk (.mid360 fun _ => []) (manyPoints n) with hs
  have hsome : s.livoxScanAccumulator = some (manyPoints n) := by rw [hheld]
  have hstart : s.livoxScanStartTime = getTimeSec (manyPoints n).stamp := by
    rw [hheld]
    rfl
  have hstamp : stampNs (onePoint 0 (10 ^ 8)).stamp = stampNs (manyPoints n).stamp := rfl
  have hacc : (s.accumulate (onePoint 0 (10 ^ 8))).1 = ⟨⟨10, 0⟩, n % 2 ^ 32,
      .replicate n ⟨0, 1, 0, 0, 0, 0, 0⟩ ++ (onePoint 0 (10 ^ 8)).points⟩ := by
    rw [accumulate_of_some hsome hstart hstamp.ge (by rw [hstamp, sub_self]; norm_num), hstamp,
      sub_self, Int.toNat_zero, adjustPoints_eq fun point hpoint => ?_]
    · simp [manyPoints, onePoint]
    · rw [List.mem_singleton.mp hpoint]
      norm_num
  have hlast : (s.accumulate (onePoint 0 (10 ^ 8))).1.points.getLast? =
      some ⟨10 ^ 8, 1, 0, 0, 0, 0, 0⟩ := by
    rw [hacc]
    exact List.getLast?_concat
  have hcompletes : s.completes (.mid360 fun _ => []) (onePoint 0 (10 ^ 8)) = true := by
    rw [completes_iff hlast, targetScanDuration_mid360]
    norm_num
  have hlen : (s.accumulate (onePoint 0 (10 ^ 8))).1.points.length = n + 1 := by
    rw [hacc, List.length_append, List.length_replicate]
    rfl
  have hemitted : s.emitted (.mid360 fun _ => []) (onePoint 0 (10 ^ 8)) =
      some { (s.accumulate (onePoint 0 (10 ^ 8))).1 with
        pointNum := (s.accumulate (onePoint 0 (10 ^ 8))).1.points.length % 2 ^ 32 } :=
    if_pos hcompletes
  refine ⟨_, run_cons_iff.mpr ⟨_, rfl, run_cons_iff.mpr ⟨_, rfl, Run.nil⟩⟩, _,
    List.mem_append_right _ (Option.mem_toList.mpr hemitted), hlen, ?_⟩
  rw [← hlen]

/-- Two packets with `2 ^ 32` points in all, the number of which is lost. -/
theorem pointNum_wraps : ∃ es w, Run (step (.mid360 fun _ => [])) init es w ∧
    Steady (.mid360 fun _ => []) (packets es) ∧
    ∃ scan ∈ w.scans, scan.pointNum ≠ scan.points.length := by
  have hn : 2 ^ 32 - 1 ≠ 0 := by norm_num
  obtain ⟨w, hw, scan, hscan, hlen, hnum⟩ := emitted_crowd hn
  refine ⟨_, w, hw, steady_crowd hn, scan, hscan, ?_⟩
  rw [hnum, hlen]
  norm_num

end Intake

end Exact

end FastLio
