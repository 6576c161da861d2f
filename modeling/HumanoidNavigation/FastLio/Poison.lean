import HumanoidNavigation.FastLio.Accumulator
import HumanoidNavigation.FastLio.Glitch
import Mathlib.Tactic.Linarith

/-!
# A corrupted stamp in the Livox callbacks

`livox_pcl_cbk` and `process_livox_scan` have no guard against a corrupted stamp, and no leak
guard. The stamp does nothing unless its packet begins a scan. Then it is the start of that scan,
and when the scan is completed it is what the next one is compared with; `Poison` follows it
through these two variables. The scans that wait in `lidar_buffer` are cleared only on account of
such a stamp, since the others are in order.

`resilient_iff_harmless` says for the Livox callbacks and for `standard_pcl_cbk` which streams do
no harm.
-/

namespace FastLio

open Transition CppFloat

attribute [local instance] CppFloat.exact

namespace Watch

/-- Where the corrupted stamp is in the node, by the packets so far: nowhere, since its packet has
not come, was added to an earlier scan, or began a scan that was given up or is followed by
another one; in `livox_scan_start_time`; or in `last_timestamp_lidar`. -/
inductive Poison where
  | absent
  | start (c : ℚ)
  | last (c : ℚ)

/-- What a packet does to it. -/
def Poison.next (cfg : Config ℚ) (k : ℕ) (w : Watch) (packet : CustomMsg ℚ) : Poison → Poison
  | absent =>
    if w.stamps.length = k ∧ w.lio.beginsScan (getTimeSec packet.stamp) = true then
      if w.lio.completes cfg packet then last (getTimeSec packet.stamp)
      else start (getTimeSec packet.stamp)
    else absent
  | start c =>
    if getTimeSec packet.stamp < c ∨ c + 1 < getTimeSec packet.stamp then absent
    else if w.lio.completes cfg packet then last c
    else start c
  | last c => if w.lio.completes cfg packet then absent else last c

/-- The corrupted stamp after the events. -/
def poisonAfter (cfg : Config ℚ) (k : ℕ) (es : List (Event ℚ)) : Poison :=
  along (step cfg) (fun w p e _ =>
    match e with
    | Event.livoxPacket packet => p.next cfg k w packet
    | .pointCloud2 _ | .imu _ | .timer => p) init .absent es

/-- While scans are waiting, no scan is completed that starts at the corrupted stamp `c` and behind
the previous one, or that starts before `c` when the previous one starts at `c`. -/
def SparesScans (cfg : Config ℚ) (k : ℕ) (w : Watch) (packet : CustomMsg ℚ) : Poison → Prop
  | .absent => w.stamps.length = k → w.lio.beginsScan (getTimeSec packet.stamp) = true →
      w.lio.completes cfg packet = true → getTimeSec packet.stamp < w.lio.lastTimestampLidar →
      w.lio.lidarBuffer = []
  | .start c => c ≤ getTimeSec packet.stamp → getTimeSec packet.stamp ≤ c + 1 →
      w.lio.completes cfg packet = true → c < w.lio.lastTimestampLidar → w.lio.lidarBuffer = []
  | .last c => w.lio.completes cfg packet = true →
      w.lio.scanStart (getTimeSec packet.stamp) < c → w.lio.lidarBuffer = []

/-- When a later packet was added to the scan that starts at the corrupted stamp `c`, none comes
more than a second after `c`; and the points that are added to that scan fit into 32 bits. -/
def SparesPackets (k : ℕ) (w : Watch) (packet : CustomMsg ℚ) : Poison → Prop
  | .absent | .last _ => True
  | .start c => (c + 1 < getTimeSec packet.stamp → w.stamps.length = k + 1) ∧
      (c ≤ getTimeSec packet.stamp → getTimeSec packet.stamp ≤ c + 1 →
        ∀ point ∈ packet.points,
          ⌊(getTimeSec packet.stamp - c : ℚ) * 10 ^ 9⌋ + (point.offsetTime : ℤ) < 2 ^ 32)

/-- A PointCloud2 message is harmless unless it follows a corrupted first one. A Livox packet is
harmless if it does not complete a scan when 100 are waiting, and spares the waiting scans and the
later packets what the corrupted stamp can do to them. -/
def Harmless (cfg : Config ℚ) (k : ℕ) (w : Watch) (p : Poison) : Event ℚ → Prop
  | .pointCloud2 _ => k = 0 → w.stamps = []
  | .livoxPacket packet =>
    (w.lio.completes cfg packet = true → w.lio.lidarBuffer.length < 100) ∧
      w.SparesScans cfg k packet p ∧ w.SparesPackets k packet p
  | .imu _ | .timer => True

variable {k : ℕ} {a : ℚ} {cfg : Config ℚ} {w w' : Watch} {e : Event ℚ} {es : List (Event ℚ)}

/-! ### Livox packets -/

variable (cfg w) in
lemma buffer_livoxPacket (packet : CustomMsg ℚ) :
    (w.livoxPacket cfg packet).lio.lidarBuffer.length ≤ 100 ∧
        (w.livoxPacket cfg packet).cleared = [] ↔
      (if w.lio.completes cfg packet then w.lio.lidarBuffer.length < 100
        else w.lio.lidarBuffer.length ≤ 100) ∧
      ¬w.lio.Clears cfg (.livoxPacket packet) ∧ w.cleared = [] := by
  cases hcomplete : w.lio.completes cfg packet with
  | false => simp [livoxPacket, Lio.livoxPclCbk_of_not_completes hcomplete, Lio.Clears, hcomplete]
  | true =>
    have hlength : (w.livoxPacket cfg packet).lio.lidarBuffer.length =
        ((if w.lio.loopBack (w.lio.scanTime packet) then [] else w.lio.scans) ++
          [w.lio.scanCount + 1]).length := by
      rw [← (Lio.received_livoxPclCbk hcomplete).scans, Lio.scans, List.length_map]
      rfl
    rw [hlength]
    cases hback : w.lio.loopBack (w.lio.scanTime packet) with
    | false =>
      have hscans : (w.lio.scans ++ [w.lio.scanCount + 1]).length =
          w.lio.lidarBuffer.length + 1 := by
        rw [List.length_append, Lio.scans, List.length_map, List.length_singleton]
      rw [if_neg Bool.false_ne_true, hscans, if_pos rfl, Nat.add_one_le_iff]
      simp [livoxPacket, Lio.Clears, hcomplete, hback]
    | true =>
      by_cases hempty : w.lio.lidarBuffer = []
      · simp [livoxPacket, Lio.Clears, hcomplete, hback, hempty, Lio.scans]
      · simp [livoxPacket, Lio.Clears, hcomplete, hback, hempty, Lio.scans]

variable (k cfg w) in
lemma discarded_livoxPacket (packet : CustomMsg ℚ) :
    (∀ n, (k, n) ∈ (w.livoxPacket cfg packet).discarded → n ≤ k) ↔
      (∀ n, (k, n) ∈ w.discarded → n ≤ k) ∧
      (w.begun = k → ∀ n ∈ w.displaced packet, n ≤ k) ∧
      (w.begunBy packet = k → w.leavesOut packet = true → w.stamps.length ≤ k) := by
  constructor
  · intro h
    refine ⟨fun n hn => h n (by simp [livoxPacket, hn]), ?_, ?_⟩
    · rintro rfl n hn
      exact h n (by simp [livoxPacket, hn])
    · rintro rfl hleaves
      exact h _ (by simp [livoxPacket, hleaves])
  · rintro ⟨hold, hdisplaced, hleaves⟩ n hn
    simp only [livoxPacket, List.mem_append, List.mem_map, Prod.mk.injEq] at hn
    rcases hn with (hn | ⟨m, hm, hbegun, rfl⟩) | hn
    · exact hold n hn
    · exact hdisplaced hbegun m hm
    · split_ifs at hn with hout
      · simp only [List.mem_singleton, Prod.mk.injEq] at hn
        rw [hn.2]
        exact hleaves hn.1.symm hout
      · simp at hn

/-! ### The corrupted stamp in the node -/

/-- What the node remembers of the packets in the accumulator, which are the last ones, and of the
scan that was completed before. -/
structure Located (k : ℕ) (w : Watch) (p : Poison) : Prop where
  accumulator : ∀ acc ∈ w.lio.livoxScanAccumulator,
    getTimeSec acc.stamp = w.lio.livoxScanStartTime ∧
    w.stamps[w.begun]? = some w.lio.livoxScanStartTime ∧
    w.contributors = List.range' w.begun (w.stamps.length - w.begun)
  contributors : w.lio.livoxScanAccumulator = none → w.contributors = []
  first : w.lio.isFirstLidar = true → w.lio.lidarBuffer = []
  completed : w.lio.isFirstLidar = false → ∃ b < w.stamps.length,
    w.stamps[b]? = some w.lio.lastTimestampLidar ∧
    (w.lio.livoxScanAccumulator ≠ none → b < w.begun) ∧
    (b = k → p = .last w.lio.lastTimestampLidar)
  absent : p = .absent → w.lio.livoxScanAccumulator ≠ none → w.begun ≠ k
  start : ∀ c, p = .start c → w.lio.livoxScanAccumulator ≠ none ∧ w.begun = k ∧
    w.lio.livoxScanStartTime = c ∧ ∀ a, w.stamps[k + 1]? = some a → c ≤ a
  last : ∀ c, p = .last c → k < w.stamps.length ∧
    (w.lio.livoxScanAccumulator ≠ none → w.begun ≠ k) ∧ w.lio.isFirstLidar = false ∧
    w.lio.lastTimestampLidar = c

variable {p : Poison} {packet : CustomMsg ℚ}

lemma beginsScan_iff {s : Lio ℚ} {t : ℚ} : s.beginsScan t = true ↔
    s.livoxScanAccumulator = none ∨ t < s.livoxScanStartTime ∨ s.livoxScanStartTime + 1 < t := by
  simp [Lio.beginsScan, or_assoc, lt_sub_iff_add_lt']

lemma loopBack_iff {s : Lio ℚ} {t : ℚ} :
    s.loopBack t = true ↔ s.isFirstLidar = false ∧ t < s.lastTimestampLidar := by
  simp [Lio.loopBack]

/-- The packet number of the start of the scan. -/
lemma begunBy_of_begins (h : w.lio.beginsScan (getTimeSec packet.stamp) = true) :
    w.begunBy packet = w.stamps.length ∧
      w.lio.scanStart (getTimeSec packet.stamp) = getTimeSec packet.stamp :=
  ⟨if_pos h, if_pos h⟩

lemma begunBy_of_not_begins (h : w.lio.beginsScan (getTimeSec packet.stamp) = false) :
    w.begunBy packet = w.begun ∧
      w.lio.scanStart (getTimeSec packet.stamp) = w.lio.livoxScanStartTime :=
  ⟨if_neg (by simp [h]), if_neg (by simp [h])⟩

lemma ne_none_of_not_begins {s : Lio ℚ} {t : ℚ} (h : s.beginsScan t = false) :
    s.livoxScanAccumulator ≠ none := by
  rw [← Bool.not_eq_true, beginsScan_iff, not_or] at h
  exact h.1

lemma Located.stamp_begunBy (h : w.Located k p) (packet : CustomMsg ℚ) :
    (w.stamps ++ [getTimeSec packet.stamp])[w.begunBy packet]? =
      some (w.lio.scanStart (getTimeSec packet.stamp)) := by
  cases hbegins : w.lio.beginsScan (getTimeSec packet.stamp) with
  | true =>
    obtain ⟨hbegun, hstart⟩ := begunBy_of_begins hbegins
    rw [hbegun, hstart, List.getElem?_concat_length]
  | false =>
    obtain ⟨hbegun, hstart⟩ := begunBy_of_not_begins hbegins
    obtain ⟨acc, hacc⟩ := Option.ne_none_iff_exists'.mp (ne_none_of_not_begins hbegins)
    obtain ⟨-, hstamp, -⟩ := h.accumulator acc hacc
    have hlt := (List.getElem?_eq_some_iff.mp hstamp).1
    rw [hbegun, hstart, List.getElem?_append_left hlt, hstamp]

lemma Located.scanTime_eq (h : w.Located k p) (packet : CustomMsg ℚ) :
    w.lio.scanTime packet = w.lio.scanStart (getTimeSec packet.stamp) := by
  cases hbegins : w.lio.beginsScan (getTimeSec packet.stamp) with
  | true =>
    rw [(begunBy_of_begins hbegins).2, Lio.scanTime, Lio.accumulate, hbegins]
    cases w.lio.livoxScanAccumulator <;> rfl
  | false =>
    obtain ⟨acc, hacc⟩ := Option.ne_none_iff_exists'.mp (ne_none_of_not_begins hbegins)
    rw [(begunBy_of_not_begins hbegins).2, Lio.scanTime, Lio.accumulate, hbegins, hacc]
    exact (h.accumulator acc hacc).1

/-- The scan that was completed last began before the one that this packet belongs to. -/
lemma Located.lt_begunBy (h : w.Located k p) (packet : CustomMsg ℚ)
    (hfirst : w.lio.isFirstLidar = false) : ∃ b < w.begunBy packet,
      w.stamps[b]? = some w.lio.lastTimestampLidar ∧
      (b = k → p = .last w.lio.lastTimestampLidar) := by
  obtain ⟨b, hlt, hb, hbegun, hk⟩ := h.completed hfirst
  refine ⟨b, ?_, hb, hk⟩
  cases hbegins : w.lio.beginsScan (getTimeSec packet.stamp) with
  | true => rwa [(begunBy_of_begins hbegins).1]
  | false =>
    rw [(begunBy_of_not_begins hbegins).1]
    exact hbegun (ne_none_of_not_begins hbegins)

/-- The corrupted packet aside, scans are completed in the order of their starts. -/
lemma Located.not_loopBack (h : w.Located k p)
    (hstream : SingleGlitch k (w.stamps ++ [getTimeSec packet.stamp]))
    (hbegun : w.begunBy packet ≠ k) (hp : ∀ c, p ≠ .last c) :
    ¬w.lio.loopBack (w.lio.scanTime packet) = true := by
  rw [loopBack_iff, h.scanTime_eq]
  rintro ⟨hfirst, hlt⟩
  obtain ⟨b, hb, hstamp, hk⟩ := h.lt_begunBy packet hfirst
  have hbk : b ≠ k := fun hbk => hp _ (hk hbk)
  have hle := hstream.le hb hbk hbegun
    (by rwa [List.getElem?_append_left (List.getElem?_eq_some_iff.mp hstamp).1])
    (h.stamp_begunBy packet)
  exact absurd hlt (not_lt.mpr hle)

/-- A packet clears nothing unless it completes a scan that starts before the previous one while
scans are waiting. -/
lemma Located.not_clears_iff_of_start (h : w.Located k p) {x : ℚ}
    (hx : w.lio.scanStart (getTimeSec packet.stamp) = x) :
    ¬w.lio.Clears cfg (.livoxPacket packet) ↔ (w.lio.completes cfg packet = true →
      x < w.lio.lastTimestampLidar → w.lio.lidarBuffer = []) := by
  rw [Lio.Clears, loopBack_iff, h.scanTime_eq, hx]
  constructor
  · intro hclears hcomplete hlt
    by_contra hne
    have hfirst : w.lio.isFirstLidar = false := by
      rw [← Bool.not_eq_true]
      exact fun hfirst => hne (h.first hfirst)
    exact hclears ⟨hcomplete, ⟨hfirst, hlt⟩, hne⟩
  · rintro hempty ⟨hcomplete, ⟨-, hlt⟩, hne⟩
    exact hne (hempty hcomplete hlt)

lemma Located.not_clears (h : w.Located k p)
    (hstream : SingleGlitch k (w.stamps ++ [getTimeSec packet.stamp]))
    (hbegun : w.begunBy packet ≠ k) (hp : ∀ c, p ≠ .last c) :
    ¬w.lio.Clears cfg (.livoxPacket packet) :=
  fun hclears => h.not_loopBack hstream hbegun hp hclears.2.1

/-- A packet of the scan that starts at the corrupted stamp. -/
lemma Located.not_begins_iff {c : ℚ} (h : w.Located k (.start c)) :
    w.lio.beginsScan (getTimeSec packet.stamp) = false ↔
      c ≤ getTimeSec packet.stamp ∧ getTimeSec packet.stamp ≤ c + 1 := by
  obtain ⟨hne, -, hstart, -⟩ := h.start c rfl
  rw [← Bool.not_eq_true, beginsScan_iff, hstart, or_iff_right hne, not_or, not_lt, not_lt]

lemma Located.lt_length_of_start {c : ℚ} (h : w.Located k (.start c)) : k < w.stamps.length := by
  obtain ⟨hne, hbegun, -, -⟩ := h.start c rfl
  obtain ⟨acc, hacc⟩ := Option.ne_none_iff_exists'.mp hne
  obtain ⟨-, hstamp, -⟩ := h.accumulator acc hacc
  exact hbegun ▸ (List.getElem?_eq_some_iff.mp hstamp).1

/-- A packet clears nothing if and only if it spares the waiting scans. -/
lemma Located.not_clears_iff (h : w.Located k p)
    (hstream : SingleGlitch k (w.stamps ++ [getTimeSec packet.stamp])) :
    ¬w.lio.Clears cfg (.livoxPacket packet) ↔ w.SparesScans cfg k packet p := by
  cases p with
  | absent =>
    by_cases hk : w.stamps.length = k ∧ w.lio.beginsScan (getTimeSec packet.stamp) = true
    · rw [h.not_clears_iff_of_start (begunBy_of_begins hk.2).2]
      exact ⟨fun hempty _ _ => hempty, fun hempty => hempty hk.1 hk.2⟩
    · refine iff_of_true (h.not_clears hstream ?_ nofun) fun hlength hbegins =>
        absurd ⟨hlength, hbegins⟩ hk
      cases hbegins : w.lio.beginsScan (getTimeSec packet.stamp) with
      | true =>
        rw [(begunBy_of_begins hbegins).1]
        exact fun hlength => hk ⟨hlength, hbegins⟩
      | false =>
        rw [(begunBy_of_not_begins hbegins).1]
        exact h.absent rfl (ne_none_of_not_begins hbegins)
  | start c =>
    cases hbegins : w.lio.beginsScan (getTimeSec packet.stamp) with
    | true =>
      refine iff_of_true (h.not_clears hstream ?_ nofun) fun hle hle' => ?_
      · rw [(begunBy_of_begins hbegins).1]
        exact h.lt_length_of_start.ne'
      · have := h.not_begins_iff.mpr ⟨hle, hle'⟩
        cases hbegins.symm.trans this
    | false =>
      obtain ⟨-, -, hstart, -⟩ := h.start c rfl
      obtain ⟨hle, hle'⟩ := h.not_begins_iff.mp hbegins
      rw [h.not_clears_iff_of_start ((begunBy_of_not_begins hbegins).2.trans hstart)]
      exact ⟨fun hempty _ _ => hempty, fun hempty => hempty hle hle'⟩
  | last c =>
    obtain ⟨-, -, -, hlast⟩ := h.last c rfl
    rw [h.not_clears_iff_of_start rfl, hlast]
    rfl

/-- The packets that were added to the scan of the corrupted one are not given up, unless a packet
comes more than a second after the corrupted stamp. -/
lemma Located.displaced_iff {c : ℚ} (h : w.Located k (.start c))
    (hstream : SingleGlitch k (w.stamps ++ [getTimeSec packet.stamp])) :
    (∀ n ∈ w.displaced packet, n ≤ k) ↔
      (c + 1 < getTimeSec packet.stamp → w.stamps.length = k + 1) := by
  obtain ⟨hne, hbegun, hstart, hnext⟩ := h.start c rfl
  obtain ⟨acc, hacc⟩ := Option.ne_none_iff_exists'.mp hne
  obtain ⟨-, -, hcontributors⟩ := h.accumulator acc hacc
  have hlength := h.lt_length_of_start
  -- a packet before the corrupted stamp comes right after it
  have hbehind : getTimeSec packet.stamp < c → w.stamps.length = k + 1 := by
    intro hlt
    by_contra hne
    have hget := List.getElem?_eq_getElem (l := w.stamps) (i := k + 1) (by omega)
    have hle := hstream.le (i := k + 1) (j := w.stamps.length) (by omega) (by omega) (by omega)
      (by rw [List.getElem?_append_left (by omega), hget]) List.getElem?_concat_length
    exact absurd hlt (not_lt.mpr ((hnext _ hget).trans hle))
  have hrange : (∀ n ∈ w.contributors, n ≤ k) ↔ w.stamps.length = k + 1 := by
    rw [hcontributors, hbegun]
    constructor
    · intro hall
      have := hall (w.stamps.length - 1) (by rw [List.mem_range'_1]; omega)
      omega
    · intro hlength n hn
      rw [List.mem_range'_1] at hn
      omega
  simp only [displaced]
  split_ifs with hbegins
  · rw [hrange]
    refine ⟨fun hlength _ => hlength, fun hahead => ?_⟩
    rw [beginsScan_iff, hstart, or_iff_right hne] at hbegins
    exact hbegins.elim hbehind hahead
  · refine iff_of_true (by simp) fun hlt => ?_
    have := (h.not_begins_iff.mp (by simpa using hbegins)).2
    exact absurd hlt (not_lt.mpr this)

lemma Located.leavesOut_iff {c : ℚ} (h : w.Located k (.start c))
    (hbegins : w.lio.beginsScan (getTimeSec packet.stamp) = false) :
    ¬w.leavesOut packet = true ↔ ∀ point ∈ packet.points,
      ⌊(getTimeSec packet.stamp - c : ℚ) * 10 ^ 9⌋ + (point.offsetTime : ℤ) < 2 ^ 32 := by
  obtain ⟨-, -, hstart, -⟩ := h.start c rfl
  have hle := (h.not_begins_iff.mp hbegins).1
  have hoffset : (w.lio.packetOffsetNs (getTimeSec packet.stamp) : ℤ) =
      ⌊(getTimeSec packet.stamp - c : ℚ) * 10 ^ 9⌋ := by
    have hnonneg : (0 : ℚ) ≤ getTimeSec packet.stamp - c := sub_nonneg.mpr hle
    have hmax : CppFloat.max (lit 0 : ℚ) (getTimeSec packet.stamp - c) =
        getTimeSec packet.stamp - c := by
      simp only [CppFloat.max, exact_lit, exact_lt, decide_eq_true_eq]
      split_ifs with hlt
      · rfl
      · exact le_antisymm hnonneg (not_lt.mp hlt)
    rw [Lio.packetOffsetNs, (begunBy_of_not_begins hbegins).2, hstart, hmax]
    exact Int.toNat_of_nonneg (Int.floor_nonneg.mpr (mul_nonneg hnonneg (by norm_num)))
  simp only [leavesOut, List.any_eq_true, decide_eq_true_eq, not_exists, not_and, ← hoffset]
  refine forall₂_congr fun point _ => ?_
  omega

/-- A packet makes the node discard no later packet from the scan of the corrupted one if and only
if it spares them. -/
lemma Located.discards_iff (h : w.Located k p)
    (hstream : SingleGlitch k (w.stamps ++ [getTimeSec packet.stamp])) :
    ((w.begun = k → ∀ n ∈ w.displaced packet, n ≤ k) ∧
      (w.begunBy packet = k → w.leavesOut packet = true → w.stamps.length ≤ k)) ↔
      w.SparesPackets k packet p := by
  -- when the corrupted packet has not begun the scan, there is nothing to spare
  have hother : (w.lio.livoxScanAccumulator ≠ none → w.begun ≠ k) →
      (w.begun = k → ∀ n ∈ w.displaced packet, n ≤ k) ∧
        (w.begunBy packet = k → w.leavesOut packet = true → w.stamps.length ≤ k) := by
    intro hne
    constructor
    · intro hbegun n hn
      have hnone : w.lio.livoxScanAccumulator = none := not_not.mp fun h => hne h hbegun
      simp [displaced, h.contributors hnone] at hn
    · intro hbegun _
      cases hbegins : w.lio.beginsScan (getTimeSec packet.stamp) with
      | true => exact ((begunBy_of_begins hbegins).1.symm.trans hbegun).le
      | false =>
        have := (begunBy_of_not_begins hbegins).1.symm.trans hbegun
        exact absurd this (hne (ne_none_of_not_begins hbegins))
  cases p with
  | absent => exact iff_of_true (hother (h.absent rfl)) trivial
  | last c => exact iff_of_true (hother (h.last c rfl).2.1) trivial
  | start c =>
    have hlength := h.lt_length_of_start
    simp only [SparesPackets]
    rw [← h.displaced_iff hstream, forall_prop_of_true (h.start c rfl).2.1]
    refine and_congr_right fun _ => ?_
    cases hbegins : w.lio.beginsScan (getTimeSec packet.stamp) with
    | true =>
      refine iff_of_true (fun hbegun => ?_) fun hle hle' => ?_
      · exact absurd ((begunBy_of_begins hbegins).1.symm.trans hbegun) hlength.ne'
      · cases hbegins.symm.trans (h.not_begins_iff.mpr ⟨hle, hle'⟩)
    | false =>
      obtain ⟨hle, hle'⟩ := h.not_begins_iff.mp hbegins
      rw [forall_prop_of_true hle, forall_prop_of_true hle', ← h.leavesOut_iff hbegins,
        forall_prop_of_true ((begunBy_of_not_begins hbegins).1.trans (h.start c rfl).2.1)]
      exact ⟨fun hleaves hout => absurd (hleaves hout) (by omega), fun hout h => absurd h hout⟩

/-! ### What a packet does to it -/

lemma located_init : init.Located k .absent where
  accumulator := nofun
  contributors _ := rfl
  first _ := rfl
  completed := nofun
  absent _ hne := absurd rfl hne
  start := nofun
  last := nofun

/-- A packet of the scan that the corrupted one began, or that one itself. -/
lemma Located.next_of_begunBy_eq (h : w.Located k p) (hbegun : w.begunBy packet = k) :
    p.next cfg k w packet =
      if w.lio.completes cfg packet then .last (w.lio.scanStart (getTimeSec packet.stamp))
      else .start (w.lio.scanStart (getTimeSec packet.stamp)) := by
  cases hbegins : w.lio.beginsScan (getTimeSec packet.stamp) with
  | true =>
    obtain ⟨hlength, hstart⟩ := begunBy_of_begins hbegins
    rw [hbegun] at hlength
    rw [hstart]
    cases p with
    | absent => simp [Poison.next, hlength.symm, hbegins]
    | start c => exact absurd hlength h.lt_length_of_start.ne
    | last c => exact absurd hlength (h.last c rfl).1.ne
  | false =>
    obtain ⟨hbegun', hstart⟩ := begunBy_of_not_begins hbegins
    rw [hbegun] at hbegun'
    have hne := ne_none_of_not_begins hbegins
    rw [hstart]
    cases p with
    | absent => exact absurd hbegun'.symm (h.absent rfl hne)
    | start c =>
      obtain ⟨hle, hle'⟩ := h.not_begins_iff.mp hbegins
      rw [(h.start c rfl).2.2.1]
      simp [Poison.next, hle.not_gt, hle'.not_gt]
    | last c => exact absurd hbegun'.symm ((h.last c rfl).2.1 hne)

variable (cfg) in
/-- A packet of another scan. -/
lemma Located.next_of_begunBy_ne (h : w.Located k p) (hbegun : w.begunBy packet ≠ k) :
    p.next cfg k w packet = .absent ∨
      w.lio.completes cfg packet = false ∧ ∃ c, p = .last c ∧ p.next cfg k w packet = .last c := by
  cases hbegins : w.lio.beginsScan (getTimeSec packet.stamp) with
  | true =>
    have hlength := (begunBy_of_begins hbegins).1
    cases p with
    | absent => exact Or.inl (if_neg fun hk => hbegun (hlength.trans hk.1))
    | start c =>
      have hout : getTimeSec packet.stamp < c ∨ c + 1 < getTimeSec packet.stamp := by
        rw [beginsScan_iff, (h.start c rfl).2.2.1] at hbegins
        exact hbegins.resolve_left (h.start c rfl).1
      exact Or.inl (if_pos hout)
    | last c => cases hcomplete : w.lio.completes cfg packet <;> simp [Poison.next, hcomplete]
  | false =>
    rw [(begunBy_of_not_begins hbegins).1] at hbegun
    cases p with
    | absent => exact Or.inl (if_neg (by simp [hbegins]))
    | start c => exact absurd (h.start c rfl).2.1 hbegun
    | last c => cases hcomplete : w.lio.completes cfg packet <;> simp [Poison.next, hcomplete]

lemma Located.begunBy_lt (h : w.Located k p) (packet : CustomMsg ℚ) :
    w.begunBy packet < (w.stamps ++ [getTimeSec packet.stamp]).length :=
  (List.getElem?_eq_some_iff.mp (h.stamp_begunBy packet)).1

lemma Located.livoxPacket_of_completes (h : w.Located k p)
    (hcomplete : w.lio.completes cfg packet = true) :
    (w.livoxPacket cfg packet).Located k (p.next cfg k w packet) := by
  have hreceived := Lio.received_livoxPclCbk hcomplete
  have hnone : (w.lio.livoxPclCbk cfg packet).livoxScanAccumulator = none := by
    simp only [Lio.completes] at hcomplete
    simp only [Lio.livoxPclCbk, hcomplete, if_true]
    exact Lio.livoxScanAccumulator_processLivoxScan ..
  have hlast := hreceived.lastTimestampLidar.trans (h.scanTime_eq packet)
  refine
    { accumulator := fun acc hacc => ?_, contributors := fun _ => if_pos hcomplete,
      first := fun hfirst => ?_, completed := fun _ => ?_, absent := fun _ hne => ?_,
      start := fun c hnext => ?_, last := fun c hnext => ?_ }
  · cases hnone.symm.trans hacc
  · cases hreceived.isFirstLidar.symm.trans hfirst
  · refine ⟨w.begunBy packet, h.begunBy_lt packet, ?_, fun hne => absurd hnone hne, ?_⟩
    · exact (h.stamp_begunBy packet).trans (congrArg some hlast.symm)
    · intro hbegun
      rw [h.next_of_begunBy_eq hbegun, if_pos hcomplete]
      exact congrArg Poison.last hlast.symm
  · exact absurd hnone hne
  · by_cases hbegun : w.begunBy packet = k
    · rw [h.next_of_begunBy_eq hbegun, if_pos hcomplete] at hnext
      cases hnext
    · rcases h.next_of_begunBy_ne cfg hbegun with habsent | ⟨hnot, -⟩
      · cases habsent.symm.trans hnext
      · cases hcomplete.symm.trans hnot
  · by_cases hbegun : w.begunBy packet = k
    · rw [h.next_of_begunBy_eq hbegun, if_pos hcomplete] at hnext
      obtain rfl := Poison.last.inj hnext
      exact ⟨hbegun ▸ h.begunBy_lt packet, fun hne => absurd hnone hne,
        hreceived.isFirstLidar, hlast⟩
    · rcases h.next_of_begunBy_ne cfg hbegun with habsent | ⟨hnot, -⟩
      · cases habsent.symm.trans hnext
      · cases hcomplete.symm.trans hnot

/-- The packets of the scan in the accumulator. -/
lemma Located.contributors_eq (h : w.Located k p) (packet : CustomMsg ℚ) :
    (if w.lio.beginsScan (getTimeSec packet.stamp) then [w.stamps.length]
      else w.contributors ++ [w.stamps.length]) =
        List.range' (w.begunBy packet) (w.stamps.length + 1 - w.begunBy packet) := by
  cases hbegins : w.lio.beginsScan (getTimeSec packet.stamp) with
  | true =>
    rw [(begunBy_of_begins hbegins).1, if_pos rfl, Nat.add_sub_cancel_left]
    rfl
  | false =>
    obtain ⟨acc, hacc⟩ := Option.ne_none_iff_exists'.mp (ne_none_of_not_begins hbegins)
    obtain ⟨-, hstamp, hcontributors⟩ := h.accumulator acc hacc
    have hlt := (List.getElem?_eq_some_iff.mp hstamp).1
    rw [(begunBy_of_not_begins hbegins).1, if_neg Bool.false_ne_true, hcontributors,
      show w.stamps.length + 1 - w.begun = w.stamps.length - w.begun + 1 by omega,
      List.range'_concat, Nat.one_mul, show w.begun + (w.stamps.length - w.begun) =
        w.stamps.length by omega]

/-- The packet after the corrupted one is not before the start of its scan, when it is in it. -/
lemma Located.start_le (h : w.Located k p) (hbegun : w.begunBy packet = k)
    (hlt : k < w.stamps.length)
    (ha : (w.stamps ++ [getTimeSec packet.stamp])[k + 1]? = some a) :
    w.lio.scanStart (getTimeSec packet.stamp) ≤ a := by
  cases hbegins : w.lio.beginsScan (getTimeSec packet.stamp) with
  | true => exact absurd (hbegun.symm.trans (begunBy_of_begins hbegins).1) hlt.ne
  | false =>
    obtain ⟨hbegun', hstart⟩ := begunBy_of_not_begins hbegins
    have hne := ne_none_of_not_begins hbegins
    rw [hbegun] at hbegun'
    cases p with
    | absent => exact absurd hbegun'.symm (h.absent rfl hne)
    | last c => exact absurd hbegun'.symm ((h.last c rfl).2.1 hne)
    | start c =>
      obtain ⟨-, -, hc, hnext⟩ := h.start c rfl
      rw [hstart, hc]
      rcases Nat.lt_or_ge (k + 1) w.stamps.length with hk | hk
      · rw [List.getElem?_append_left hk] at ha
        exact hnext a ha
      · rw [show k + 1 = w.stamps.length by omega, List.getElem?_concat_length] at ha
        obtain rfl := Option.some.inj ha
        exact (h.not_begins_iff.mp hbegins).1

lemma Located.livoxPacket_of_not_completes (h : w.Located k p)
    (hcomplete : w.lio.completes cfg packet = false) :
    (w.livoxPacket cfg packet).Located k (p.next cfg k w packet) := by
  have hlio : (w.livoxPacket cfg packet).lio = { w.lio with
      livoxScanAccumulator := some (w.lio.accumulate packet).1
      livoxScanStartTime := w.lio.scanStart (getTimeSec packet.stamp) } :=
    Lio.livoxPclCbk_of_not_completes hcomplete
  have hold {i : ℕ} {a : ℚ} (ha : w.stamps[i]? = some a) :
      (w.stamps ++ [getTimeSec packet.stamp])[i]? = some a := by
    rwa [List.getElem?_append_left (List.getElem?_eq_some_iff.mp ha).1]
  refine
    { accumulator := fun acc hacc => ?_, contributors := fun hnone => ?_,
      first := fun hfirst => ?_, completed := fun hfirst => ?_, absent := fun hnext _ => ?_,
      start := fun c hnext => ?_, last := fun c hnext => ?_ }
  · rw [hlio] at hacc ⊢
    obtain rfl := Option.some.inj hacc
    refine ⟨h.scanTime_eq packet, h.stamp_begunBy packet, ?_⟩
    simp only [Watch.livoxPacket, hcomplete, Bool.false_eq_true, if_false, List.length_append,
      List.length_singleton]
    exact h.contributors_eq packet
  · rw [hlio] at hnone
    cases hnone
  · rw [hlio] at hfirst ⊢
    exact h.first hfirst
  · rw [hlio] at hfirst ⊢
    obtain ⟨b, hb, hstamp, hk⟩ := h.lt_begunBy packet hfirst
    have hlt := (List.getElem?_eq_some_iff.mp (hold hstamp)).1
    refine ⟨b, hlt, hold hstamp, fun _ => hb, fun hbk => ?_⟩
    rw [hk hbk, Poison.next, hcomplete, if_neg Bool.false_ne_true]
  · intro hbegun
    rw [h.next_of_begunBy_eq hbegun, hcomplete, if_neg Bool.false_ne_true] at hnext
    cases hnext
  · have hbegun : w.begunBy packet = k := by
      by_contra hbegun
      rcases h.next_of_begunBy_ne cfg hbegun with habsent | ⟨-, d, -, hlast⟩
      · cases habsent.symm.trans hnext
      · cases hlast.symm.trans hnext
    rw [h.next_of_begunBy_eq hbegun, hcomplete, if_neg Bool.false_ne_true] at hnext
    obtain rfl := Poison.start.inj hnext
    rw [hlio]
    refine ⟨nofun, hbegun, rfl, fun a ha => ?_⟩
    -- the scan has begun before, since there is a packet after the corrupted one
    have hlt : k + 1 < w.stamps.length + 1 := by
      simpa [Watch.livoxPacket] using (List.getElem?_eq_some_iff.mp ha).1
    exact h.start_le hbegun (by omega) ha
  · by_cases hbegun : w.begunBy packet = k
    · rw [h.next_of_begunBy_eq hbegun, hcomplete, if_neg Bool.false_ne_true] at hnext
      cases hnext
    · rcases h.next_of_begunBy_ne cfg hbegun with habsent | ⟨-, d, rfl, hlast⟩
      · cases habsent.symm.trans hnext
      · obtain rfl := Poison.last.inj (hlast.symm.trans hnext)
        obtain ⟨hlt, -, hfirst, hstamp⟩ := h.last d rfl
        rw [hlio]
        refine ⟨?_, fun _ => hbegun, hfirst, hstamp⟩
        simp only [Watch.livoxPacket, List.length_append]
        omega

lemma Located.livoxPacket (h : w.Located k p) (packet : CustomMsg ℚ) :
    (w.livoxPacket cfg packet).Located k (p.next cfg k w packet) := by
  cases hcomplete : w.lio.completes cfg packet with
  | true => exact h.livoxPacket_of_completes hcomplete
  | false => exact h.livoxPacket_of_not_completes hcomplete

/-- A Livox packet does no harm if and only if it is harmless. -/
lemma Resilient.livoxPacket_iff (h : w.Resilient k) (hlocated : w.Located k p)
    (packet : CustomMsg ℚ)
    (hstream : SingleGlitch k (w.stamps ++ [getTimeSec packet.stamp])) :
    (w.livoxPacket cfg packet).Resilient k ↔ w.Harmless cfg k p (.livoxPacket packet) := by
  have hbuffer := buffer_livoxPacket cfg w packet
  have hdiscarded := discarded_livoxPacket k cfg w packet
  rw [hlocated.discards_iff hstream] at hdiscarded
  rw [hlocated.not_clears_iff hstream] at hbuffer
  have hbounded : (if w.lio.completes cfg packet then w.lio.lidarBuffer.length < 100
      else w.lio.lidarBuffer.length ≤ 100) ↔
      (w.lio.completes cfg packet = true → w.lio.lidarBuffer.length < 100) := by
    split_ifs with hcomplete
    · simp [hcomplete]
    · simp [hcomplete, h.bounded]
  rw [hbounded] at hbuffer
  constructor
  · intro ht
    obtain ⟨hlength, hspares, -⟩ := hbuffer.mp ⟨ht.bounded, ht.cleared⟩
    exact ⟨hlength, hspares, (hdiscarded.mp ht.discarded).2⟩
  · rintro ⟨hlength, hscans, hpackets⟩
    obtain ⟨hbounded', hcleared⟩ := hbuffer.mpr ⟨hlength, hscans, h.cleared⟩
    exact ⟨hbounded', hcleared, h.rejected, hdiscarded.mpr ⟨h.discarded, hpackets⟩⟩

/-! ### Runs -/

/-- What `livox_pcl_cbk` remembers of the stream. -/
lemma Located.of_eq {p : Poison} (h : w.Located k p) (hstamps : w'.stamps = w.stamps)
    (hbegun : w'.begun = w.begun) (hcontributors : w'.contributors = w.contributors)
    (hsame : w.lio.SameAccumulator w'.lio)
    (hfirst : w'.lio.isFirstLidar = w.lio.isFirstLidar)
    (hlast : w'.lio.lastTimestampLidar = w.lio.lastTimestampLidar)
    (hlength : w'.lio.lidarBuffer.length ≤ w.lio.lidarBuffer.length) : w'.Located k p where
  accumulator := by
    rw [hsame.accumulator, hsame.start, hstamps, hbegun, hcontributors]
    exact h.accumulator
  contributors := by
    rw [hsame.accumulator, hcontributors]
    exact h.contributors
  first hf := by
    rw [hfirst] at hf
    rw [h.first hf, List.length_nil, Nat.le_zero, List.length_eq_zero_iff] at hlength
    exact hlength
  completed := by
    rw [hfirst, hlast, hstamps, hsame.accumulator, hbegun]
    exact h.completed
  absent := by
    rw [hsame.accumulator, hbegun]
    exact h.absent
  start := by
    rw [hsame.accumulator, hsame.start, hbegun, hstamps]
    exact h.start
  last := by
    rw [hsame.accumulator, hbegun, hstamps, hfirst, hlast]
    exact h.last

lemma located_of_run (havia : cfg.avia = true) (hrun : Run (step cfg) init es w) :
    w.Located k (poisonAfter cfg k es) := by
  induction hrun with
  | nil => exact located_init
  | @snoc es s t e hs he ih =>
    rw [poisonAfter, along_snoc hs he]
    cases e with
    | pointCloud2 msg => simp [step, havia] at he
    | livoxPacket packet =>
      simp only [step, Option.ite_none_right_eq_some, Option.some.injEq] at he
      obtain ⟨-, rfl⟩ := he
      exact ih.livoxPacket packet
    | imu msg =>
      obtain rfl := Option.some.inj he
      exact ih.of_eq rfl rfl rfl ⟨rfl, rfl⟩ rfl rfl le_rfl
    | timer =>
      obtain rfl := Option.some.inj he
      obtain ⟨hfirst, hlast, hlength⟩ := syncPackages_keeps s.lio
      exact ih.of_eq rfl rfl rfl Lio.sameAccumulator_syncPackages hfirst hlast hlength

/-- One step of a run with a single glitch does no harm if and only if it is harmless. -/
lemma Resilient.step_iff (h : w.Resilient k) (hrun : Run (step cfg) init es w)
    (hstream : SingleGlitch k w'.stamps) (he : w.step cfg e = some w') :
    w'.Resilient k ↔ w.Harmless cfg k (poisonAfter cfg k es) e := by
  obtain ⟨rest, hrest⟩ := stamps_of_step he
  cases e with
  | pointCloud2 msg =>
    simp only [step, Option.ite_none_left_eq_some, Option.some.injEq] at he
    obtain ⟨havia, rfl⟩ := he
    have hremembers := remembers_of_run (by simpa using havia) hrun (hrest ▸ hstream).of_append
    by_cases hk : k = 0
    · subst hk
      rw [h.pointCloud2_iff_of_first (hremembers.2 rfl) msg hstream]
      simp [Harmless]
    · refine iff_of_true (h.pointCloud2 (hremembers.1 hk) hk msg hstream) ?_
      exact fun hzero => absurd hzero hk
  | livoxPacket packet =>
    simp only [step, Option.ite_none_right_eq_some, Option.some.injEq] at he
    obtain ⟨havia, rfl⟩ := he
    exact h.livoxPacket_iff (located_of_run havia hrun) packet hstream
  | imu msg =>
    obtain rfl := Option.some.inj he
    exact iff_of_true ⟨h.bounded, h.cleared, h.rejected, h.discarded⟩ trivial
  | timer =>
    obtain rfl := Option.some.inj he
    obtain ⟨-, -, hlength⟩ := syncPackages_keeps w.lio
    exact iff_of_true ⟨hlength.trans h.bounded, h.cleared, h.rejected, h.discarded⟩ trivial

/-- Every step of the run is harmless. -/
def AllHarmless (cfg : Config ℚ) (k : ℕ) (es : List (Event ℚ)) : Prop :=
  Throughout (step cfg) init (fun pre w e => w.Harmless cfg k (poisonAfter cfg k pre) e) es

/-- In every run whose LiDAR stream has a single corrupted stamp, the corrupted message does no
harm and the buffer is bounded, if and only if all steps are harmless. -/
theorem resilient_iff_harmless (hrun : Run (step cfg) init es w)
    (hstream : SingleGlitch k w.stamps) :
    (∀ pre post s, es = pre ++ post → Run (step cfg) init pre s → s.Resilient k) ↔
      AllHarmless cfg k es := by
  refine forall_prefix_iff_throughout (I := fun _ _ => True) trivial ?_ ?_ ?_ hrun
  · constructor <;> simp [init, Lio.init]
  · exact fun _ _ _ _ _ _ _ _ _ _ _ => trivial
  · rintro pre e post s t rfl hs - hgood he
    obtain ⟨s', hs', hrest⟩ := run_append_iff.mp hrun
    obtain rfl := hs.unique hs'
    obtain ⟨t', ht', hrest⟩ := run_cons_iff.mp hrest
    obtain rfl := Option.some.inj (he.symm.trans ht')
    obtain ⟨rest, hstamps⟩ := stamps_of_run hrest
    exact hgood.step_iff hs (hstamps ▸ hstream).of_append he

/-- The second of three PointCloud2 messages is ninety seconds ahead. -/
theorem resilient_iff_harmless_pointCloud2 : ∃ w, Run (step (.velodyne fun _ => [])) init
      [.pointCloud2 (cloudAt 10), .pointCloud2 (cloudAt 100), .pointCloud2 (cloudAt 11)] w ∧
    ((∀ pre post s, [.pointCloud2 (cloudAt 10), .pointCloud2 (cloudAt 100),
          .pointCloud2 (cloudAt 11)] = pre ++ post →
        Run (step (.velodyne fun _ => [])) init pre s → s.Resilient 1) ↔
      AllHarmless (.velodyne fun _ => []) 1
        [.pointCloud2 (cloudAt 10), .pointCloud2 (cloudAt 100), .pointCloud2 (cloudAt 11)]) := by
  obtain ⟨w, hw, hstamps⟩ := exists_run (step (.velodyne fun _ => [])) init
    [.pointCloud2 (cloudAt 10), .pointCloud2 (cloudAt 100), .pointCloud2 (cloudAt 11)]
    (fun w => w.stamps = [10, 100, 11]) (by decide +kernel)
  refine ⟨w, hw, resilient_iff_harmless hw ?_⟩
  rw [hstamps]
  refine ⟨by norm_num [Follows], ?_⟩
  rintro a b ha hb
  obtain rfl : 10 = a := by simpa using ha
  obtain rfl : 100 = b := by simpa using hb
  norm_num [OutOfLine]

/-- The third of four Livox scans is twenty seconds ahead: the fourth one, which is in order, clears
the buffer. -/
theorem livox_glitch_clears : ∃ w, Run (step (.mid360 fun _ => [])) init
      [.livoxPacket (wholeScan 10), .livoxPacket (wholeScan 11), .livoxPacket (wholeScan 30),
        .livoxPacket (wholeScan 12)] w ∧
    SingleGlitch 2 w.stamps ∧ ¬w.Resilient 2 := by
  obtain ⟨w, hw, hstamps, hcleared⟩ := exists_run (step (.mid360 fun _ => [])) init
    [.livoxPacket (wholeScan 10), .livoxPacket (wholeScan 11), .livoxPacket (wholeScan 30),
      .livoxPacket (wholeScan 12)]
    (fun w => w.stamps = [10, 11, 30, 12] ∧ w.cleared = [1, 2, 3]) (by decide +kernel)
  refine ⟨w, hw, ⟨?_, ?_⟩, fun h => ?_⟩
  · rw [hstamps]
    norm_num [Follows]
  · rw [hstamps]
    rintro a b ha hb
    obtain rfl : 11 = a := by simpa using ha
    obtain rfl : 30 = b := by simpa using hb
    norm_num [OutOfLine]
  · have hnone := h.cleared
    rw [hcleared] at hnone
    cases hnone

end Watch
end FastLio
