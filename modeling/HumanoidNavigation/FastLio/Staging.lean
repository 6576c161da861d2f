import HumanoidNavigation.FastLio.System
import HumanoidNavigation.Transition.PeekPop

/-!
# Every scan is consumed once

`sync_packages` stages the scan in front of `lidar_buffer` in one call, and hands it on and pops
the front in that or a later call, once IMU messages have reached the end of the scan. In between,
a LiDAR callback may remove scans from the front of the buffer: the leak guard of
`standard_pcl_cbk` and the loop-back branch of `process_livox_scan` do. The buffer is then a
`PeekPop` that loses its staged item.

No scan is handed on twice, and none before an earlier one (`Numbered`). The other half of the
design, that the scan which is popped is the one that is handed on, so that only the LiDAR
callbacks make scans disappear, holds in exactly the runs in which no staged scan is removed.
-/

namespace FastLio

open Transition CppFloat

variable {F : Type} [CppFloat F] {cfg : Config F} {w w' : World F} {e : Event F}
  {es : List (Event F)}

/-- The step makes room in `lidar_buffer`: the leak guard of `standard_pcl_cbk` drops the oldest
scan, or `process_livox_scan` clears the buffer. -/
def Lio.Removes (cfg : Config F) (s : Lio F) : Event F → Prop
  | .pointCloud2 msg => s.glitch (getTimeSec msg.stamp) = false ∧ 100 ≤ s.lidarBuffer.length
  | .livoxPacket packet => s.Clears cfg (.livoxPacket packet)
  | .imu _ | .timer => False

namespace World

/-- The scans in `lidar_buffer`, and the one that is staged. -/
def peekPop (w : World F) : PeekPop ℕ where
  queue := w.lio.scans
  staged := if w.lio.lidarPushed then some w.lio.measures.lidar.scan else none
  received := w.enqueued
  removed := w.removed
  popped := w.popped
  delivered := w.groups.map fun g => g.lidar.scan

/-- The scans are numbered by `scan_count`. -/
structure Numbered (w : World F) : Prop where
  inv : w.peekPop.Inv
  le_scanCount : ∀ n ∈ w.enqueued, n ≤ w.lio.scanCount

lemma numbered_init : (init : World F).Numbered := by
  refine ⟨?_, by simp [init]⟩
  constructor <;> simp [peekPop, init, Lio.init, Lio.scans]

/-! ### The callbacks -/

omit [CppFloat F] in
/-- A callback that leaves the buffer as it is. -/
lemma peekPop_received_of_eq {t : Lio F} (hscans : t.scans = w.lio.scans)
    (hpushed : t.lidarPushed = w.lio.lidarPushed) (hmeasures : t.measures = w.lio.measures) :
    (w.received t).peekPop = w.peekPop := by
  simp [peekPop, received, hscans, hpushed, hmeasures]

omit [CppFloat F] in
/-- A callback that removes the `k` oldest scans and appends a new one. -/
lemma peekPop_received {t : Lio F} {n k : ℕ} (h : w.Numbered) (hn : w.lio.scanCount < n)
    (hscans : t.scans = w.lio.scans.drop k ++ [n]) (hpushed : t.lidarPushed = w.lio.lidarPushed)
    (hmeasures : t.measures = w.lio.measures) :
    w.peekPop.apply (.receive k n) = some (w.received t).peekPop := by
  have hlt : ∀ b ∈ w.lio.scans, b < n := by
    intro b hb
    exact (h.le_scanCount b (h.inv.mem b (by simp [peekPop, hb]))).trans_lt hn
  have hnew : (w.lio.scans.drop k ++ [n]).filter (fun b => b ∉ w.lio.scans) = [n] := by
    rw [List.filter_append, List.filter_eq_nil_iff.mpr, List.nil_append, List.filter_eq_self.mpr]
    · intro b hb
      rw [List.mem_singleton.mp hb]
      simpa using fun hmem => (hlt n hmem).ne rfl
    · intro b hb
      simpa using List.mem_of_mem_drop hb
  have hold : w.lio.scans.filter (fun b => b ∉ w.lio.scans.drop k ++ [n])
      = w.lio.scans.take k := by
    have hpair : (w.lio.scans.take k ++ w.lio.scans.drop k).Pairwise (· < ·) := by
      rw [List.take_append_drop]
      exact h.inv.queue
    conv_lhs => rw [← List.take_append_drop k w.lio.scans]
    rw [List.filter_append, List.filter_eq_self.mpr, List.filter_eq_nil_iff.mpr, List.append_nil]
    · intro b hb
      simp [hb]
    · intro b hb
      have hne : b ∉ w.lio.scans.drop k := fun hmem =>
        ((List.pairwise_append.mp hpair).2.2 b hb b hmem).ne rfl
      simpa [hne] using (hlt b (List.mem_of_mem_take hb)).ne
  simp only [PeekPop.apply, peekPop, received, hscans, hpushed, hmeasures, hnew, hold]

/-- A callback does nothing to the buffer, or it appends the next scan and removes some of the
oldest ones. -/
def Receives (cfg : Config F) (w w' : World F) (e : Event F) : PeekPop.Action ℕ → Prop
  | .idle => w.lio.scanCount ≤ w'.lio.scanCount ∧ ¬w.lio.Removes cfg e
  | .receive k n => n = w'.lio.scanCount ∧ w.lio.scanCount < n ∧
      (w.peekPop.queue.take k = [] ↔ ¬w.lio.Removes cfg e)
  | .stage | .deliver => False

lemma receives_pointCloud2 (h : w.Numbered) (msg : PointCloud2) :
    ∃ action, Receives cfg w (w.received (w.lio.standardPclCbk cfg msg)) (.pointCloud2 msg) action ∧
      w.peekPop.apply action = some (w.received (w.lio.standardPclCbk cfg msg)).peekPop := by
  obtain ⟨hpushed, hmeasures⟩ := w.lio.standardPclCbk_staged cfg msg
  cases hglitch : w.lio.glitch (getTimeSec msg.stamp) with
  | true =>
    refine ⟨.idle, ⟨?_, by simp [Lio.Removes, hglitch]⟩, ?_⟩
    · rw [Lio.standardPclCbk_of_glitch hglitch]
      exact Nat.le_succ _
    · rw [peekPop_received_of_eq _ hpushed hmeasures]
      · rfl
      · rw [Lio.standardPclCbk_of_glitch hglitch]
        rfl
  | false =>
    have hreceived := Lio.received_standardPclCbk cfg hglitch
    refine ⟨.receive (w.lio.scans.length + 1 - 100) (w.lio.scanCount + 1), ⟨?_, ?_, ?_⟩, ?_⟩
    · exact hreceived.scanCount.symm
    · exact Nat.lt_succ_self _
    · rw [List.take_eq_nil_iff, ← List.length_eq_zero_iff]
      simp only [peekPop, Lio.Removes, hglitch, true_and, not_le, Lio.scans, List.length_map]
      omega
    · refine peekPop_received h (Nat.lt_succ_self _) ?_ hpushed hmeasures
      rw [hreceived.scans, List.drop_append_of_le_length (by omega)]

lemma receives_livoxPacket (h : w.Numbered) (packet : CustomMsg F) :
    ∃ action, Receives cfg w (w.received (w.lio.livoxPclCbk cfg packet)) (.livoxPacket packet)
        action ∧
      w.peekPop.apply action = some (w.received (w.lio.livoxPclCbk cfg packet)).peekPop := by
  obtain ⟨hpushed, hmeasures⟩ := w.lio.livoxPclCbk_staged cfg packet
  cases hcomplete : w.lio.completes cfg packet with
  | false =>
    refine ⟨.idle, ⟨?_, by simp [Lio.Removes, Lio.Clears, hcomplete]⟩, ?_⟩
    · rw [Lio.livoxPclCbk_of_not_completes hcomplete]
      exact le_rfl
    · rw [peekPop_received_of_eq _ hpushed hmeasures]
      · rfl
      · rw [Lio.livoxPclCbk_of_not_completes hcomplete]
        rfl
  | true =>
    have hreceived := Lio.received_livoxPclCbk hcomplete
    refine ⟨.receive (if w.lio.loopBack (w.lio.scanTime packet) then w.lio.scans.length else 0)
      (w.lio.scanCount + 1), ⟨?_, ?_, ?_⟩, ?_⟩
    · exact hreceived.scanCount.symm
    · exact Nat.lt_succ_self _
    · cases hback : w.lio.loopBack (w.lio.scanTime packet) <;>
        simp [peekPop, Lio.Removes, Lio.Clears, hcomplete, hback, Lio.scans]
    · refine peekPop_received h (Nat.lt_succ_self _) ?_ hpushed hmeasures
      rw [hreceived.scans]
      cases w.lio.loopBack (w.lio.scanTime packet) <;> simp

/-- What an event other than the timer does to the buffer. -/
lemma receives_of_step (h : w.Numbered) (he : w.step cfg e = some w') (hne : e ≠ .timer) :
    ∃ action, Receives cfg w w' e action ∧ w.peekPop.apply action = some w'.peekPop := by
  cases e with
  | pointCloud2 msg =>
    simp only [step, Option.ite_none_left_eq_some, Option.some.injEq] at he
    obtain ⟨-, rfl⟩ := he
    exact receives_pointCloud2 h msg
  | livoxPacket packet =>
    simp only [step, Option.ite_none_right_eq_some, Option.some.injEq] at he
    obtain ⟨-, rfl⟩ := he
    exact receives_livoxPacket h packet
  | imu msg =>
    obtain rfl := Option.some.inj he
    exact ⟨.idle, ⟨le_rfl, id⟩, rfl⟩
  | timer => exact absurd rfl hne

/-! ### The timer -/

variable {lidar : Entry (PointCloudXYZI F)} {time : Entry F}

/-- This call of `sync_packages` hands on a group. -/
def Delivers (w : World F) : Prop :=
  ∃ lidar time, w.lio.Front lidar time ∧ w.lio.reached lidar time = true

lemma peekPop_stage (hfront : w.lio.Front lidar time) :
    w.peekPop.apply .stage =
      some { w.peekPop with staged := some (w.lio.stage lidar time).measures.lidar.scan } := by
  have hstaged := w.lio.staged_stage lidar time
  obtain ⟨ls, ts, imu, imus, hl, -⟩ := hfront
  rw [hstaged.lidar]
  cases hpushed : w.lio.lidarPushed <;> simp [PeekPop.apply, peekPop, hpushed, Lio.scans, hl]

/-- A call without a group does nothing, or it stages the scan in front. -/
lemma peekPop_timer_of_not_delivers (h : ¬w.Delivers) :
    w.peekPop.apply .idle = some w.timer.peekPop ∨
      w.peekPop.apply .stage = some w.timer.peekPop := by
  by_cases hfront : ∃ lidar time, w.lio.Front lidar time
  · obtain ⟨lidar, time, hfront⟩ := hfront
    have hreached : w.lio.reached lidar time = false := by
      rw [Bool.eq_false_iff]
      exact fun hreached => h ⟨lidar, time, hfront, hreached⟩
    have hstaged := w.lio.staged_stage lidar time
    rw [timer_of_not_reached hfront hreached, peekPop_stage hfront]
    simp [peekPop, hstaged.lidarPushed, Lio.scans, hstaged.lidarBuffer]
  · rw [timer_of_not_front fun lidar time hf => hfront ⟨lidar, time, hf⟩]
    exact Or.inl rfl

/-- A call with a group stages, unless a scan is staged already, and delivers. -/
lemma peekPop_timer_of_delivers (h : w.Delivers) : ∃ m, w.peekPop.apply .stage = some m ∧
    m.apply .deliver = some w.timer.peekPop := by
  obtain ⟨lidar, time, hfront, hreached⟩ := h
  obtain ⟨g, hg, -, hgroups, hpopped, henqueued, hremoved, hscans, -, hpushed, -⟩ :=
    timer_of_reached hfront hreached
  refine ⟨_, peekPop_stage hfront, ?_⟩
  obtain ⟨ls, ts, imu, imus, hl, -⟩ := hfront
  simp [PeekPop.apply, peekPop, Lio.scans, hl, hpushed, hgroups, hg, hpopped, henqueued,
    hremoved] at hscans ⊢
  exact hscans.symm

/-- The timer receives nothing, and a call without a group does not unstage. -/
lemma timer_keeps (w : World F) : w.timer.lio.scanCount = w.lio.scanCount ∧
    w.timer.enqueued = w.enqueued ∧
    (w.lio.lidarPushed = true → ¬w.Delivers → w.timer.lio.lidarPushed = true) := by
  by_cases hfront : ∃ lidar time, w.lio.Front lidar time
  · obtain ⟨lidar, time, hfront⟩ := hfront
    have hstaged := w.lio.staged_stage lidar time
    cases hreached : w.lio.reached lidar time with
    | false =>
      rw [timer_of_not_reached hfront hreached]
      exact ⟨hstaged.scanCount, rfl, fun _ _ => hstaged.lidarPushed⟩
    | true =>
      obtain ⟨g, -, -, -, -, henqueued, -, -, -, -, hcount⟩ := timer_of_reached hfront hreached
      exact ⟨hcount, henqueued, fun _ h => absurd ⟨lidar, time, hfront, hreached⟩ h⟩
  · rw [timer_of_not_front fun lidar time hf => hfront ⟨lidar, time, hf⟩]
    exact ⟨rfl, rfl, fun h _ => h⟩

/-! ### Runs -/

lemma Numbered.timer (h : w.Numbered) : w.timer.Numbered := by
  obtain ⟨hcount, henqueued, -⟩ := w.timer_keeps
  refine ⟨?_, ?_⟩
  · by_cases hdelivers : w.Delivers
    · obtain ⟨m, hstage, hdeliver⟩ := peekPop_timer_of_delivers hdelivers
      exact (h.inv.apply hstage trivial).apply hdeliver trivial
    · rcases peekPop_timer_of_not_delivers hdelivers with hm | hm
      · exact h.inv.apply hm trivial
      · exact h.inv.apply hm trivial
  · rw [hcount, henqueued]
    exact h.le_scanCount

lemma Numbered.step (h : w.Numbered) (he : w.step cfg e = some w') : w'.Numbered := by
  by_cases htimer : e = .timer
  · subst htimer
    obtain rfl := Option.some.inj he
    exact h.timer
  obtain ⟨action, hreceives, hm⟩ := receives_of_step h he htimer
  cases action with
  | idle =>
    have henqueued : w'.enqueued = w.enqueued := congrArg PeekPop.received (Option.some.inj hm).symm
    refine ⟨h.inv.apply hm trivial, ?_⟩
    rw [henqueued]
    exact fun n hn => (h.le_scanCount n hn).trans hreceives.1
  | receive k n =>
    obtain ⟨rfl, hlt, -⟩ := hreceives
    have henqueued : w'.enqueued = w.enqueued ++ [w'.lio.scanCount] :=
      congrArg PeekPop.received (Option.some.inj hm).symm
    refine ⟨h.inv.apply hm fun b hb => (h.le_scanCount b hb).trans_lt hlt, ?_⟩
    rw [henqueued]
    intro b hb
    rcases List.mem_append.mp hb with hb | hb
    · exact (h.le_scanCount b hb).trans hlt.le
    · exact (List.mem_singleton.mp hb).le
  | stage => exact hreceives.elim
  | deliver => exact hreceives.elim

lemma numbered_of_run (hrun : Run (World.step cfg) .init es w) : w.Numbered :=
  hrun.invariant_state numbered_init fun _ _ _ h he => h.step he

/-- The step stages a scan. -/
def Stages (s : World F) (_ : Event F) (t : World F) : Prop :=
  s.lio.lidarPushed = false ∧ t.lio.lidarPushed = true

/-- A scan was staged by a step of the history, and no scan was removed since. -/
def Undisturbed (cfg : Config F) (es : List (Event F)) : Prop :=
  Since (World.step cfg) .init Stages (fun s e => ¬s.lio.Removes cfg e) es

omit [CppFloat F] in
lemma peekPop_staged_eq_none : w.peekPop.staged = none ↔ w.lio.lidarPushed = false := by
  cases h : w.lio.lidarPushed <;> simp [peekPop, h]

/-- A call that leaves a scan staged does not move it. -/
lemma intact_timer_iff (hpushed : w.timer.lio.lidarPushed = true) :
    w.timer.peekPop.Intact ↔ w.peekPop.Intact := by
  have hdelivers : ¬w.Delivers := by
    rintro ⟨lidar, time, hfront, hreached⟩
    obtain ⟨g, -, -, -, -, -, -, -, -, hfalse, -⟩ := timer_of_reached hfront hreached
    rw [hfalse] at hpushed
    cases hpushed
  rcases peekPop_timer_of_not_delivers hdelivers with hm | hm
  · rw [← Option.some.inj hm]
  · exact PeekPop.intact_stage_iff hm

lemma lidarPushed_of_receives {action : PeekPop.Action ℕ} (h : Receives cfg w w' e action)
    (hm : w.peekPop.apply action = some w'.peekPop) : w'.lio.lidarPushed = w.lio.lidarPushed := by
  have hstaged : w'.peekPop.staged = w.peekPop.staged := by
    cases action with
    | idle | receive => exact (congrArg PeekPop.staged (Option.some.inj hm)).symm
    | stage | deliver => exact h.elim
  rw [Bool.eq_iff_iff, ← Bool.not_eq_false, ← Bool.not_eq_false, ← peekPop_staged_eq_none,
    ← peekPop_staged_eq_none, hstaged]

/-- A callback that removes no scan leaves the staged scan where it is. -/
lemma intact_receives_iff {action : PeekPop.Action ℕ} (h : w.Numbered)
    (hreceives : Receives cfg w w' e action) (hm : w.peekPop.apply action = some w'.peekPop)
    (hpushed : w.lio.lidarPushed = true) :
    w'.peekPop.Intact ↔ w.peekPop.Intact ∧ ¬w.lio.Removes cfg e := by
  cases action with
  | idle =>
    rw [← Option.some.inj hm]
    exact (and_iff_left hreceives.2).symm
  | receive k n =>
    obtain ⟨rfl, hlt, hremoves⟩ := hreceives
    have hstaged : w.peekPop.staged ≠ none := by
      rw [Ne, peekPop_staged_eq_none, hpushed]
      simp
    rw [PeekPop.intact_receive_iff h.inv hm fun b hb => (h.le_scanCount b hb).trans_lt hlt,
      hremoves]
    simp [hstaged]
  | stage | deliver => exact hreceives.elim

/-- While a scan is staged, it is in front exactly when no scan was removed since. -/
lemma undisturbed_iff (hrun : Run (World.step cfg) .init es w)
    (hpushed : w.lio.lidarPushed = true) :
    Undisturbed cfg es ↔ w.peekPop.Intact := by
  induction hrun with
  | nil => cases hpushed
  | @snoc es s t e hs he ih =>
    have hnumbered := numbered_of_run hs
    rw [Undisturbed, since_snoc_iff hs he, Stages, ← Undisturbed]
    by_cases htimer : e = .timer
    · subst htimer
      obtain rfl := Option.some.inj he
      rw [intact_timer_iff hpushed]
      cases hbefore : s.lio.lidarPushed with
      | false =>
        refine iff_of_true (Or.inl ⟨rfl, hpushed⟩) ?_
        exact PeekPop.intact_of_staged_eq_none (peekPop_staged_eq_none.mpr hbefore)
      | true =>
        rw [← ih hbefore]
        simp [Lio.Removes]
    · obtain ⟨action, hreceives, hm⟩ := receives_of_step hnumbered he htimer
      have hbefore : s.lio.lidarPushed = true :=
        (lidarPushed_of_receives hreceives hm).symm.trans hpushed
      rw [intact_receives_iff hnumbered hreceives hm hbefore, ih hbefore]
      simp [hbefore]

/-- Every scan is consumed once: the groups are in the order of arrival and without repetition, a
scan that is in no group and not in the buffer was removed by a LiDAR callback, and the scans
that were popped are those of the groups. -/
structure ConsumedOnce (w : World F) : Prop where
  sublist : (w.groups.map fun g => g.lidar.scan).Sublist w.enqueued
  cover : ∀ n ∈ w.enqueued, n ∈ (w.groups.map fun g => g.lidar.scan) ∨ n ∈ w.lio.scans ∨
    n ∈ w.removed
  popped : (w.groups.map fun g => g.lidar.scan) = w.popped

omit [CppFloat F] in
lemma consumedOnce_iff_faithful (h : w.Numbered) : w.ConsumedOnce ↔ w.peekPop.Faithful := by
  constructor
  · exact fun hconsumed => hconsumed.popped
  · intro hfaithful
    exact ⟨h.inv.delivered_sublist, fun n hn => h.inv.cover_of_faithful hfaithful hn, hfaithful⟩

lemma faithful_step_iff (h : w.Numbered) (he : w.step cfg e = some w') :
    w'.peekPop.Faithful ↔
      w.peekPop.Faithful ∧ (e = .timer → w.Delivers → w.peekPop.Intact) := by
  by_cases htimer : e = .timer
  · subst htimer
    obtain rfl := Option.some.inj he
    by_cases hdelivers : w.Delivers
    · obtain ⟨m, hstage, hdeliver⟩ := peekPop_timer_of_delivers hdelivers
      rw [PeekPop.faithful_deliver_iff hdeliver, PeekPop.intact_stage_iff hstage,
        PeekPop.faithful_stage_iff hstage]
      simp [hdelivers]
    · have hsame : w.timer.peekPop.Faithful ↔ w.peekPop.Faithful := by
        rcases peekPop_timer_of_not_delivers hdelivers with hm | hm
        · rw [← Option.some.inj hm]
        · exact PeekPop.faithful_stage_iff hm
      simp [hsame, hdelivers]
  · obtain ⟨action, hreceives, hm⟩ := receives_of_step h he htimer
    have hsame : w'.peekPop.Faithful ↔ w.peekPop.Faithful := by
      cases action with
      | idle | receive => simp only [← Option.some.inj hm, PeekPop.Faithful]
      | stage | deliver => exact hreceives.elim
    simp [hsame, htimer]

/-- In every run, every scan is consumed once, if and only if no LiDAR callback makes room in
`lidar_buffer` between the call of `sync_packages` that stages a scan and the one that hands it
on. -/
theorem consumedOnce_iff_undisturbed (hrun : Run (World.step cfg) .init es w) :
    w.ConsumedOnce ↔ Throughout (World.step cfg) .init
      (fun es s e => e = .timer → s.Delivers → s.lio.lidarPushed = true → Undisturbed cfg es)
      es := by
  rw [consumedOnce_iff_faithful (numbered_of_run hrun)]
  refine iff_throughout (G := fun w => w.peekPop.Faithful) rfl ?_ hrun
  intro es s e t hs he
  rw [faithful_step_iff (numbered_of_run hs) he]
  refine and_congr_right fun _ => forall_congr' fun _ => forall_congr' fun _ => ?_
  cases hpushed : s.lio.lidarPushed with
  | false =>
    refine iff_of_true ?_ (by simp)
    exact PeekPop.intact_of_staged_eq_none (peekPop_staged_eq_none.mpr hpushed)
  | true => simp [undisturbed_iff hs hpushed]

section

attribute [local instance] CppFloat.exact

/-- The scan is staged, waits for the IMU and is handed on. -/
theorem consumedOnce_iff_waiting : ∃ w, Run (World.step (.velodyne fun _ => [])) .init
      [.imu (imuAt 9), .pointCloud2 (cloudAt 10), .timer, .pointCloud2 (cloudAt 11),
        .imu (imuAt 12), .timer] w ∧
    (w.ConsumedOnce ↔ Throughout (World.step (.velodyne fun _ => [])) .init
      (fun es s e => e = .timer → s.Delivers → s.lio.lidarPushed = true →
        Undisturbed (.velodyne fun _ => []) es)
      [.imu (imuAt 9), .pointCloud2 (cloudAt 10), .timer, .pointCloud2 (cloudAt 11),
        .imu (imuAt 12), .timer]) := by
  obtain ⟨w, hw, -⟩ := exists_run (World.step (.velodyne fun _ => [])) .init
    [.imu (imuAt 9), .pointCloud2 (cloudAt 10), .timer, .pointCloud2 (cloudAt 11),
      .imu (imuAt 12), .timer] (fun w => w.popped = [1]) (by decide +kernel)
  exact ⟨w, hw, consumedOnce_iff_undisturbed hw⟩

/-- The first scan is staged and waits for the IMU. When a hundred more have arrived, the leak
guard drops it. It is handed on nevertheless, and the second scan is popped instead. -/
theorem eviction_pops_unprocessed : ∃ w, Run (World.step (.velodyne fun _ => [])) .init
      ([.imu (imuAt 9), .pointCloud2 (cloudAt 10), .timer] ++
        ((List.range 100).map fun n => .pointCloud2 (cloudAt (11 + n))) ++
        [.imu (imuAt 12), .timer]) w ∧ ¬w.ConsumedOnce := by
  obtain ⟨w, hw, hgroups, hpopped⟩ := exists_run (World.step (.velodyne fun _ => [])) .init
    ([.imu (imuAt 9), .pointCloud2 (cloudAt 10), .timer] ++
      ((List.range 100).map fun n => .pointCloud2 (cloudAt (11 + n))) ++
      [.imu (imuAt 12), .timer])
    (fun w => (w.groups.map fun g => g.lidar.scan) = [1] ∧ w.popped = [2]) (by decide +kernel)
  refine ⟨w, hw, fun h => ?_⟩
  have hsame := h.popped
  rw [hgroups, hpopped] at hsame
  simp at hsame

end

end World
end FastLio
