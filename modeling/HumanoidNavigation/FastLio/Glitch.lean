import HumanoidNavigation.FastLio.System
import Mathlib.Data.List.Chain

/-!
# A corrupted stamp in the LiDAR stream

`SingleGlitch` is a stream of LiDAR messages of which one carries a corrupted stamp. The node
should shrug it off (`Resilient`): later messages are not dropped, scans in `lidar_buffer` are not
cleared, and the buffer does not exceed 100 scans, whatever the IMU and `sync_packages` do in
between.

`standard_pcl_cbk` compares each stamp with the previous one and drops the message that is out of
line; this works unless the corrupted message is the first one. Times are exact here.
-/

namespace FastLio

open Transition CppFloat

attribute [local instance] CppFloat.exact

/-! ### Streams -/

/-- `b` follows `a` in order and less than five seconds later. -/
def Follows (a b : ℚ) : Prop := a ≤ b ∧ b < a + 5

/-- `b` is before `a`, or more than five seconds after it. -/
def OutOfLine (a b : ℚ) : Prop := b < a ∨ a + 5 < b

lemma Follows.not_outOfLine {a b : ℚ} (h : Follows b a) : ¬OutOfLine b a := by
  rintro (hlt | hlt)
  · exact absurd hlt (not_lt.mpr h.1)
  · exact absurd hlt (not_lt.mpr h.2.le)

/-- Message number `k` carries a corrupted stamp, compared with the message before it, or after it
if it is the first one. The other messages are in order. -/
structure SingleGlitch (k : ℕ) (stamps : List ℚ) : Prop where
  others : (stamps.eraseIdx k).IsChain Follows
  corrupted : ∀ a b, stamps[k - 1]? = some a → stamps[k - 1 + 1]? = some b → OutOfLine a b

variable {k : ℕ} {stamps : List ℚ} {a : ℚ}

lemma eraseIdx_snoc_of_eq (h : stamps.length = k) : (stamps ++ [a]).eraseIdx k = stamps := by
  rw [List.eraseIdx_append_of_length_le h.le, h, Nat.sub_self]
  simp

lemma eraseIdx_snoc_of_ne (h : stamps.length ≠ k) :
    (stamps ++ [a]).eraseIdx k = stamps.eraseIdx k ++ [a] := by
  rcases lt_or_gt_of_ne h with h | h
  · rw [List.eraseIdx_of_length_le (by simp; omega), List.eraseIdx_of_length_le h.le]
  · exact List.eraseIdx_append_of_lt_length h _

lemma SingleGlitch.of_append {rest : List ℚ} (h : SingleGlitch k (stamps ++ rest)) :
    SingleGlitch k stamps := by
  refine ⟨?_, fun a b ha hb => ?_⟩
  · have hothers := h.others
    rcases lt_or_ge k stamps.length with hk | hk
    · rw [List.eraseIdx_append_of_lt_length hk] at hothers
      exact hothers.left_of_append
    · rw [List.eraseIdx_append_of_length_le hk] at hothers
      rw [List.eraseIdx_of_length_le hk]
      exact hothers.left_of_append
  · refine h.corrupted a b ?_ ?_
    · rw [List.getElem?_append_left (List.getElem?_eq_some_iff.mp ha).1, ha]
    · rw [List.getElem?_append_left (List.getElem?_eq_some_iff.mp hb).1, hb]

/-- A message that is not the corrupted one follows the previous one of the others. -/
lemma SingleGlitch.follows (h : SingleGlitch k (stamps ++ [a])) (hk : stamps.length ≠ k) {b : ℚ}
    (hb : (stamps.eraseIdx k).getLast? = some b) : Follows b a := by
  have hothers := h.others
  rw [eraseIdx_snoc_of_ne hk, List.isChain_append] at hothers
  exact hothers.2.2 b hb a rfl

/-- Two messages that are not the corrupted one are in order. -/
lemma SingleGlitch.le (h : SingleGlitch k stamps) {i j : ℕ} (hij : i < j) (hi : i ≠ k)
    (hj : j ≠ k) {b : ℚ} (ha : stamps[i]? = some a) (hb : stamps[j]? = some b) : a ≤ b := by
  have hpairwise : (stamps.eraseIdx k).Pairwise (· ≤ ·) :=
    List.isChain_iff_pairwise.mp (h.others.imp fun _ _ hf => hf.1)
  -- the positions of the two messages among the others
  have hat : ∀ n, n ≠ k → (stamps.eraseIdx k)[if n < k then n else n - 1]? = stamps[n]? := by
    intro n hn
    rcases lt_or_gt_of_ne hn with h | h
    · rw [if_pos h, List.getElem?_eraseIdx_of_lt h]
    · rw [if_neg h.not_gt, List.getElem?_eraseIdx_of_ge (by omega), show n - 1 + 1 = n by omega]
  obtain ⟨hi', hai⟩ := List.getElem?_eq_some_iff.mp ((hat i hi).trans ha)
  obtain ⟨hj', hbj⟩ := List.getElem?_eq_some_iff.mp ((hat j hj).trans hb)
  have := List.pairwise_iff_getElem.mp hpairwise _ _ hi' hj' (by split_ifs <;> omega)
  rwa [hai, hbj] at this

/-- The corrupted message is out of line with the one before it. -/
lemma SingleGlitch.outOfLine (h : SingleGlitch k (stamps ++ [a])) (hk : stamps.length = k) {b : ℚ}
    (hb : stamps.getLast? = some b) : OutOfLine b a := by
  have hpos : 0 < stamps.length := List.length_pos_of_mem (List.mem_of_getLast? hb)
  refine h.corrupted b a ?_ ?_
  · rw [List.getElem?_append_left (by omega), ← hk, ← List.getLast?_eq_getElem?, hb]
  · rw [show k - 1 + 1 = stamps.length by omega]
    simp

/-! ### The node and its messages -/

/-- The node with the stamps of the LiDAR messages that it has received and what became of them:
the scans that the loop-back branch has cleared, the messages that `standard_pcl_cbk` has dropped,
and the packets whose points were discarded, each with the packet that began the scan which they
were discarded from. `begun` and `contributors` are that packet and the others of the scan in the
accumulator. -/
structure Watch where
  lio : Lio ℚ
  stamps : List ℚ
  cleared : List ℕ
  rejected : List ℕ
  begun : ℕ
  contributors : List ℕ
  discarded : List (ℕ × ℕ)
  deriving DecidableEq

namespace Watch

def init : Watch := ⟨.init, [], [], [], 0, [], []⟩

/-- A PointCloud2 message arrives. -/
def pointCloud2 (cfg : Config ℚ) (w : Watch) (msg : PointCloud2) : Watch :=
  { w with
    lio := w.lio.standardPclCbk cfg msg
    stamps := w.stamps ++ [getTimeSec msg.stamp]
    rejected := if w.lio.glitch (getTimeSec msg.stamp) then w.rejected ++ [w.stamps.length]
      else w.rejected }

/-- The packet that began the scan which this packet belongs to. -/
def begunBy (w : Watch) (packet : CustomMsg ℚ) : ℕ :=
  if w.lio.beginsScan (getTimeSec packet.stamp) then w.stamps.length else w.begun

/-- The packets that are discarded when this packet begins a new scan. -/
def displaced (w : Watch) (packet : CustomMsg ℚ) : List ℕ :=
  if w.lio.beginsScan (getTimeSec packet.stamp) then w.contributors else []

/-- Is a point of this packet too late for 32 bits? -/
def leavesOut (w : Watch) (packet : CustomMsg ℚ) : Bool :=
  packet.points.any fun point =>
    2 ^ 32 - 1 < w.lio.packetOffsetNs (getTimeSec packet.stamp : ℚ) + point.offsetTime

/-- A Livox packet arrives. -/
def livoxPacket (cfg : Config ℚ) (w : Watch) (packet : CustomMsg ℚ) : Watch where
  lio := w.lio.livoxPclCbk cfg packet
  stamps := w.stamps ++ [getTimeSec packet.stamp]
  cleared := if w.lio.completes cfg packet && w.lio.loopBack (w.lio.scanTime packet) then
      w.cleared ++ w.lio.scans
    else w.cleared
  rejected := w.rejected
  begun := w.begunBy packet
  contributors :=
    if w.lio.completes cfg packet then []
    else if w.lio.beginsScan (getTimeSec packet.stamp) then [w.stamps.length]
    else w.contributors ++ [w.stamps.length]
  discarded := w.discarded ++ (w.displaced packet).map (fun n => (w.begun, n)) ++
    if w.leavesOut packet then [(w.begunBy packet, w.stamps.length)] else []

def step (cfg : Config ℚ) (w : Watch) : Event ℚ → Option Watch
  | .pointCloud2 msg => if cfg.avia then none else some (w.pointCloud2 cfg msg)
  | .livoxPacket packet => if cfg.avia then some (w.livoxPacket cfg packet) else none
  | .imu msg => some { w with lio := w.lio.imuCbk cfg msg }
  | .timer => some { w with lio := w.lio.syncPackages.1 }

/-- The corrupted message number `k` has done no harm: the buffer is bounded, no scan was cleared,
no later message was dropped, and no later packet was discarded from the scan that the corrupted
packet began. -/
structure Resilient (k : ℕ) (w : Watch) : Prop where
  bounded : w.lio.lidarBuffer.length ≤ 100
  cleared : w.cleared = []
  rejected : ∀ n ∈ w.rejected, n ≤ k
  discarded : ∀ n, (k, n) ∈ w.discarded → n ≤ k

variable {cfg : Config ℚ} {w w' : Watch} {e : Event ℚ} {es : List (Event ℚ)}

/-! ### The other events -/

/-- The timer does not touch the stamps and only takes scans out. -/
lemma syncPackages_keeps (s : Lio ℚ) : s.syncPackages.1.isFirstLidar = s.isFirstLidar ∧
    s.syncPackages.1.lastTimestampLidar = s.lastTimestampLidar ∧
    s.syncPackages.1.lidarBuffer.length ≤ s.lidarBuffer.length := by
  by_cases hfront : ∃ lidar time, s.Front lidar time
  · obtain ⟨lidar, time, hfront⟩ := hfront
    have hstaged := s.staged_stage lidar time
    cases hreached : s.reached lidar time with
    | false =>
      rw [Lio.syncPackages_of_not_reached hfront hreached]
      exact ⟨hstaged.isFirstLidar, hstaged.lastTimestampLidar, by rw [hstaged.lidarBuffer]⟩
    | true =>
      obtain ⟨taken, rest, hsync⟩ := Lio.syncPackages_of_reached hfront hreached
      rw [hsync]
      exact ⟨hstaged.isFirstLidar, hstaged.lastTimestampLidar, by simp⟩
  · rw [Lio.syncPackages_of_not_front fun lidar time hf => hfront ⟨lidar, time, hf⟩]
    exact ⟨rfl, rfl, le_rfl⟩

/-- The leak guard of `standard_pcl_cbk` works. -/
lemma standardPclCbk_bounded (s : Lio ℚ) (msg : PointCloud2) (h : s.lidarBuffer.length ≤ 100) :
    (s.standardPclCbk cfg msg).lidarBuffer.length ≤ 100 := by
  cases hglitch : s.glitch (getTimeSec msg.stamp) with
  | true =>
    rw [Lio.standardPclCbk_of_glitch hglitch]
    exact h
  | false =>
    have hscans := congrArg List.length (Lio.received_standardPclCbk cfg hglitch).scans
    simp only [Lio.scans, List.length_map, List.length_drop, List.length_append,
      List.length_singleton] at hscans
    omega

/-! ### PointCloud2 messages -/

/-- The node remembers the stamp of the last message that is not the corrupted one. -/
def Unpoisoned (k : ℕ) (w : Watch) : Prop :=
  (w.stamps = [] → w.lio.isFirstLidar = true) ∧
  ∀ a, (w.stamps.eraseIdx k).getLast? = some a →
    w.lio.isFirstLidar = false ∧ w.lio.lastTimestampLidar = a

/-- The node has taken a corrupted first message for good, and has dropped the second one. -/
def Poisoned (w : Watch) : Prop :=
  (w.stamps = [] → w.lio.isFirstLidar = true) ∧
  (∀ a, w.stamps = [a] → w.lio.isFirstLidar = false ∧ w.lio.lastTimestampLidar = a) ∧
  (2 ≤ w.stamps.length → 1 ∈ w.rejected)

lemma glitch_iff {s : Lio ℚ} {b : ℚ} (hfirst : s.isFirstLidar = false)
    (hlast : s.lastTimestampLidar = b) : s.glitch a = true ↔ OutOfLine b a := by
  simp [Lio.glitch, hfirst, hlast, OutOfLine]

lemma glitch_of_first {s : Lio ℚ} (hfirst : s.isFirstLidar = true) : s.glitch a = false := by
  simp [Lio.glitch, hfirst]

/-- A corrupted message that is not the first one is dropped, and no other message is. -/
lemma Unpoisoned.glitch_iff (h : w.Unpoisoned k) (hk : k ≠ 0)
    (hstream : SingleGlitch k (w.stamps ++ [a])) :
    w.lio.glitch a = true ↔ w.stamps.length = k := by
  by_cases hlength : w.stamps.length = k
  · have hne : w.stamps ≠ [] := by
      rintro hnil
      rw [hnil] at hlength
      exact hk hlength.symm
    have hlast := List.getLast?_eq_some_getLast hne
    obtain ⟨hfirst, hstamp⟩ := h.2 (w.stamps.getLast hne) (by
      rw [List.eraseIdx_of_length_le hlength.le, hlast])
    rw [Watch.glitch_iff hfirst hstamp]
    exact iff_of_true (hstream.outOfLine hlength hlast) hlength
  · refine iff_of_false ?_ hlength
    cases hlast : (w.stamps.eraseIdx k).getLast? with
    | none =>
      have hnil : w.stamps = [] := by
        rw [List.getLast?_eq_none_iff, List.eraseIdx_eq_nil_iff] at hlast
        rcases hlast with hnil | ⟨-, hzero⟩
        · exact hnil
        · exact absurd hzero hk
      rw [glitch_of_first (h.1 hnil)]
      simp
    | some b =>
      obtain ⟨hfirst, hstamp⟩ := h.2 b hlast
      rw [Watch.glitch_iff hfirst hstamp]
      exact (hstream.follows hlength hlast).not_outOfLine

lemma Unpoisoned.pointCloud2 (h : w.Unpoisoned k) (hk : k ≠ 0) (msg : PointCloud2)
    (hstream : SingleGlitch k (w.stamps ++ [getTimeSec msg.stamp])) :
    (w.pointCloud2 cfg msg).Unpoisoned k := by
  have hiff := h.glitch_iff hk hstream
  refine ⟨by simp [Watch.pointCloud2], ?_⟩
  cases hglitch : w.lio.glitch (getTimeSec msg.stamp) with
  | true =>
    have hlength := hiff.mp hglitch
    simp only [Watch.pointCloud2, Lio.standardPclCbk_of_glitch hglitch,
      eraseIdx_snoc_of_eq hlength]
    intro a ha
    refine h.2 a ?_
    rw [List.eraseIdx_of_length_le hlength.le, ha]
  | false =>
    have hlength : w.stamps.length ≠ k := by
      rw [Ne, ← hiff, hglitch]
      simp
    have hreceived := Lio.received_standardPclCbk cfg hglitch
    simp only [Watch.pointCloud2, eraseIdx_snoc_of_ne hlength, List.getLast?_concat]
    rintro a ha
    obtain rfl := Option.some.inj ha
    exact ⟨hreceived.isFirstLidar, hreceived.lastTimestampLidar⟩

lemma Resilient.pointCloud2 (h : w.Resilient k) (hun : w.Unpoisoned k) (hk : k ≠ 0)
    (msg : PointCloud2) (hstream : SingleGlitch k (w.stamps ++ [getTimeSec msg.stamp])) :
    (w.pointCloud2 cfg msg).Resilient k := by
  refine ⟨standardPclCbk_bounded w.lio msg h.bounded, h.cleared, ?_, h.discarded⟩
  intro n hn
  simp only [Watch.pointCloud2] at hn
  split_ifs at hn with hglitch
  · rcases List.mem_append.mp hn with hn | hn
    · exact h.rejected n hn
    · rw [List.mem_singleton.mp hn]
      exact ((hun.glitch_iff hk hstream).mp hglitch).le
  · exact h.rejected n hn

lemma Poisoned.pointCloud2 (h : w.Poisoned) (msg : PointCloud2)
    (hstream : SingleGlitch 0 (w.stamps ++ [getTimeSec msg.stamp])) :
    (w.pointCloud2 cfg msg).Poisoned := by
  obtain ⟨hfirst, hsecond, hrest⟩ := h
  refine ⟨by simp [Watch.pointCloud2], ?_, ?_⟩
  · intro a ha
    obtain ⟨hnil, rfl⟩ : w.stamps = [] ∧ getTimeSec msg.stamp = a := by
      simpa [Watch.pointCloud2, List.append_eq_singleton_iff] using ha
    have hreceived := Lio.received_standardPclCbk cfg
      (glitch_of_first (a := getTimeSec msg.stamp) (hfirst hnil))
    exact ⟨hreceived.isFirstLidar, hreceived.lastTimestampLidar⟩
  · intro hlength
    match hstamps : w.stamps with
    | [] => simp [Watch.pointCloud2, hstamps] at hlength
    | [c] =>
      obtain ⟨hfalse, hlast⟩ := hsecond c hstamps
      have hout : OutOfLine c (getTimeSec msg.stamp) :=
        hstream.corrupted c _ (by simp [hstamps]) (by simp [hstamps])
      simp [Watch.pointCloud2, (Watch.glitch_iff hfalse hlast).mpr hout, hstamps]
    | c :: d :: l =>
      have hmem := hrest (by simp [hstamps])
      simp only [Watch.pointCloud2]
      split_ifs
      · exact List.mem_append_left _ hmem
      · exact hmem

/-- After a corrupted first message, no other message gets through without harm. -/
lemma Resilient.pointCloud2_iff_of_first (h : w.Resilient 0) (hpoisoned : w.Poisoned)
    (msg : PointCloud2) (hstream : SingleGlitch 0 (w.stamps ++ [getTimeSec msg.stamp])) :
    (w.pointCloud2 cfg msg).Resilient 0 ↔ w.stamps = [] := by
  constructor
  · intro ht
    by_contra hne
    have hlength : 2 ≤ (w.pointCloud2 cfg msg).stamps.length := by
      have := List.length_pos_of_ne_nil hne
      simp only [Watch.pointCloud2, List.length_append, List.length_singleton]
      omega
    have hle := ht.rejected 1 ((hpoisoned.pointCloud2 msg hstream).2.2 hlength)
    omega
  · intro hnil
    refine ⟨standardPclCbk_bounded w.lio msg h.bounded, h.cleared, ?_, h.discarded⟩
    simpa [Watch.pointCloud2, glitch_of_first (hpoisoned.1 hnil)] using h.rejected

/-! ### Runs -/

/-- A step appends to the stream. -/
lemma stamps_of_step (he : w.step cfg e = some w') : ∃ rest, w'.stamps = w.stamps ++ rest := by
  cases e with
  | pointCloud2 msg =>
    simp only [step, Option.ite_none_left_eq_some, Option.some.injEq] at he
    obtain ⟨-, rfl⟩ := he
    exact ⟨_, rfl⟩
  | livoxPacket packet =>
    simp only [step, Option.ite_none_right_eq_some, Option.some.injEq] at he
    obtain ⟨-, rfl⟩ := he
    exact ⟨_, rfl⟩
  | imu msg =>
    obtain rfl := Option.some.inj he
    exact ⟨[], (List.append_nil _).symm⟩
  | timer =>
    obtain rfl := Option.some.inj he
    exact ⟨[], (List.append_nil _).symm⟩

lemma stamps_of_run (hrun : Run (step cfg) w es w') : ∃ rest, w'.stamps = w.stamps ++ rest := by
  induction hrun with
  | nil => exact ⟨[], (List.append_nil _).symm⟩
  | snoc h he ih =>
    obtain ⟨rest, hrest⟩ := ih
    obtain ⟨rest', hrest'⟩ := stamps_of_step he
    exact ⟨rest ++ rest', by rw [hrest', hrest, List.append_assoc]⟩

/-- What `standard_pcl_cbk` remembers of the stream. -/
def Remembers (k : ℕ) (w : Watch) : Prop := (k ≠ 0 → w.Unpoisoned k) ∧ (k = 0 → w.Poisoned)

/-- A step that leaves the stamps alone. -/
lemma Remembers.of_eq (h : w.Remembers k) (hstamps : w'.stamps = w.stamps)
    (hrejected : w'.rejected = w.rejected) (hfirst : w'.lio.isFirstLidar = w.lio.isFirstLidar)
    (hlast : w'.lio.lastTimestampLidar = w.lio.lastTimestampLidar) : w'.Remembers k := by
  simpa only [Remembers, Unpoisoned, Poisoned, hstamps, hrejected, hfirst, hlast] using h

lemma remembers_of_run (havia : cfg.avia = false) (hrun : Run (step cfg) init es w)
    (hstream : SingleGlitch k w.stamps) : w.Remembers k := by
  induction hrun with
  | nil =>
    refine ⟨fun _ => ⟨fun _ => rfl, ?_⟩, fun _ => ⟨fun _ => rfl, ?_, ?_⟩⟩ <;> simp [init]
  | @snoc es s t e hs he ih =>
    obtain ⟨rest, hrest⟩ := stamps_of_step he
    have hs := ih (hrest ▸ hstream).of_append
    cases e with
    | pointCloud2 msg =>
      simp only [step, Option.ite_none_left_eq_some, Option.some.injEq] at he
      obtain ⟨-, rfl⟩ := he
      refine ⟨fun hk => (hs.1 hk).pointCloud2 hk msg hstream, ?_⟩
      rintro rfl
      exact (hs.2 rfl).pointCloud2 msg hstream
    | livoxPacket packet => simp [step, havia] at he
    | imu msg =>
      obtain rfl := Option.some.inj he
      exact hs.of_eq rfl rfl rfl rfl
    | timer =>
      obtain rfl := Option.some.inj he
      obtain ⟨hfirst, hlast, -⟩ := syncPackages_keeps s.lio
      exact hs.of_eq rfl rfl hfirst hlast

end Watch
end FastLio
